import BridgeBindings.Syntax.Grammar.Expression

/-!
# The grammar of patterns

The patterns of `match` statements are read for their form only.
-/

namespace BridgeBindings.Syntax.Grammar

open BridgeBindings.Syntax.Parser

/-- Whether a list of patterns goes on after an element: takes the comma and
tells whether another one follows it. -/
def nextPattern (close : String) : Parser Bool := do
  if ← takeSymbol "," then return !(← isSymbol close) else return false

def dottedWord : Parser Bool := do
  let _ ← identifier
  repeatFrom false fun _ => do
    if ← takeSymbol "." then
      let _ ← identifier
      return some true
    else return none

def number : Parser Constant := do
  let t ← peek
  match t.kind with
  | .number value =>
    advance
    return value
  | _ => refuse

def isImaginary : Constant → Bool
  | .imaginary _ => true
  | _ => false

/-- A number with its sign, or the sum of a real and an imaginary one. -/
def numberPattern : Parser Unit := do
  let _ ← takeSymbol "-"
  let real ← number
  let plus ← takeSymbol "+"
  let added ← if plus then pure true else takeSymbol "-"
  if added then
    let imaginary ← number
    if isImaginary real || !isImaginary imaginary then refuse

def literalOrName (r : Rules) : Parser Unit := do
  match (← peek).kind with
  | .number _ | .symbol "-" => numberPattern
  | .string _ => do
    let _ ← strings r
  | .name id =>
    if (constantWord id).isSome then advance
    else if !(← dottedWord) then refuse
  | _ => refuse

/-- A pattern, or a star with the name that collects the rest. -/
def orStarPattern (p : Parser Unit) : Parser Unit := do
  if ← takeSymbol "*" then
    let _ ← identifier
  else p

def patternsUntil (close : String) (item : Parser Unit) : Parser Unit := do
  if !(← isSymbol close) then
    item
    repeatFrom () fun _ => do
      if ← nextPattern close then
        item
        return some ()
      else return none
  symbol close

def mappingItem (r : Rules) (p : Parser Unit) : Parser Unit := do
  if ← takeSymbol "**" then
    let _ ← identifier
  else
    literalOrName r
    symbol ":"
    p

def classArgument (p : Parser Unit) : Parser Unit := do
  let _ ← identifierBefore "="
  p

def closedPattern (r : Rules) (p : Parser Unit) : Parser Unit := do
  match (← peek).kind with
  | .symbol "(" =>
    advance
    patternsUntil ")" (orStarPattern p)
  | .symbol "[" =>
    advance
    patternsUntil "]" (orStarPattern p)
  | .symbol "\x7b" =>
    advance
    patternsUntil "\x7d" (mappingItem r p)
  | .name id =>
    if (constantWord id).isSome then advance
    else
      let _ ← dottedWord
      if ← takeSymbol "(" then patternsUntil ")" (classArgument p)
  | .number _ | .symbol "-" => numberPattern
  | .string _ => do
    let _ ← strings r
  | _ => refuse

def patternRule (r : Rules) (p : Parser Unit) : Parser Unit := do
  closedPattern r p
  repeatFrom () fun _ => do
    if ← takeSymbol "|" then
      closedPattern r p
      return some ()
    else return none
  if ← takeWord "as" then
    if (← identifier) = "_" then refuse

/-- Patterns with this many levels below them. -/
def patternAt (r : Rules) : Nat → Parser Unit
  | 0 => refuse
  | n + 1 => patternRule r (patternAt r n)

/-- What stands behind `case`: a pattern, or several without brackets. -/
def casePatterns (p : Parser Unit) : Parser Unit := do
  let star ← isSymbol "*"
  orStarPattern p
  if star && !(← isSymbol ",") then refuse
  repeatFrom () fun _ => do
    if ← takeSymbol "," then
      if (← isSymbol ":") || (← isWord "if") then return none
      else
        orStarPattern p
        return some ()
    else return none

end BridgeBindings.Syntax.Grammar
