import BridgeBindings.Breakdown
import BridgeBindings.Syntax.Numeral
import BridgeBindings.Syntax.Tree
import BridgeBindings.Text.Quoted

/-!
# Expressions as text

The normal form in which messages show an expression: single spaces around
operators, and parentheses only where the precedence of a part calls for them.
An expression asks for parentheses when what surrounds it binds tighter than its
own operator.

Inside the braces of a formatted string no backslash may stand. Strings there
are quoted so as to avoid one where that is possible, and an expression for
which it is not has no text. Nor has one with an integer of too many digits.
-/

namespace BridgeBindings.Syntax.Print

open Text

/-! ## Precedence -/

def namedLevel : Nat := 0
def tupleLevel : Nat := 1
def yieldLevel : Nat := 2
def testLevel : Nat := 3
def orLevel : Nat := 4
def andLevel : Nat := 5
def notLevel : Nat := 6
def compareLevel : Nat := 7
def bitOrLevel : Nat := 8
def factorLevel : Nat := 14
def powerLevel : Nat := 15
def awaitLevel : Nat := 16
def atomLevel : Nat := 17

/-- One level tighter; nothing is tighter than an atom. -/
def tighter (level : Nat) : Nat := min (level + 1) atomLevel

def binarySymbol : BinaryOp → String × Nat
  | .bitOr => ("|", bitOrLevel)
  | .bitXor => ("^", 9)
  | .bitAnd => ("&", 10)
  | .shiftLeft => ("<<", 11)
  | .shiftRight => (">>", 11)
  | .add => ("+", 12)
  | .sub => ("-", 12)
  | .mul => ("*", 13)
  | .matMul => ("@", 13)
  | .div => ("/", 13)
  | .mod => ("%", 13)
  | .floorDiv => ("//", 13)
  | .pow => ("**", powerLevel)

def unarySymbol : UnaryOp → String × Nat
  | .not => ("not ", notLevel)
  | .plus => ("+", factorLevel)
  | .minus => ("-", factorLevel)
  | .invert => ("~", factorLevel)

def boolWord : BoolOp → String × Nat
  | .and => (" and ", andLevel)
  | .or => (" or ", orLevel)

def compareText : CompareOp → String
  | .eq => "=="
  | .notEq => "!="
  | .lt => "<"
  | .ltEq => "<="
  | .gt => ">"
  | .gtEq => ">="
  | .is => "is"
  | .isNot => "is not"
  | .in => "in"
  | .notIn => "not in"

def parens (needed : Bool) (s : String) : String :=
  if needed then "(" ++ s ++ ")" else s

def commas (parts : List String) : String := ", ".intercalate parts

/-- Elements between commas; a lone one is followed by its comma. -/
def elements : List String → String
  | [one] => one ++ ","
  | parts => commas parts

/-! ## Strings that avoid backslashes -/

def allQuotes : List String := ["'", "\"", "\"\"\"", "'''"]

/-- A code point as it stands in a quoted string, where line feeds and tabs may
stand for themselves. -/
def plainPoint (escapeBlank : Bool) (p : CodePoint) : List Char :=
  match p with
  | .surrogate _ => codeEscape p.value
  | .char c =>
    if !escapeBlank && (c = '\n' || c = '\t') then [c]
    else if c = '\\' then ['\\', '\\']
    else if isPrintable c then [c]
    else if c = '\t' then ['\\', 't']
    else if c = '\n' then ['\\', 'n']
    else if c = '\r' then ['\\', 'r']
    else codeEscape c.toNat

/-- Whether one text occurs inside another. -/
def occursIn (part : List Char) : List Char → Bool
  | [] => part.isEmpty
  | c :: cs => part.isPrefixOf (c :: cs) || occursIn part cs

/-- A string as it stands between quotes, and the quotes that may stand around
it, best first. -/
def quotable (quotes : List String) (escapeBlank : Bool) (s : CodeText) :
    List Char × List String :=
  let escaped := s.points.flatMap (plainPoint escapeBlank)
  let possible :=
    if escaped.contains '\n' then quotes.filter (·.length = 3) else quotes
  let possible := possible.filter fun q => !occursIn q.toList escaped
  match possible with
  | [] =>
    let whole := (quotedText s).toList
    let quote := String.ofList (whole.take 1)
    let found :=
      (quotes.find? fun q => q.toList.take 1 = whole.take 1).getD quote
    ((whole.drop 1).dropLast, [found])
  | _ =>
    match escaped.getLast? with
    | none => (escaped, possible)
    | some last =>
      let opens (q : String) : Bool := q.toList.head? = some last
      let sorted := possible.filter (!opens ·) ++ possible.filter opens
      if sorted.head?.any opens then (escaped.dropLast ++ ['\\', last], sorted)
      else (escaped, sorted)

def avoiding (s : CodeText) : String :=
  let (inside, quotes) := quotable allQuotes false s
  let quote := quotes.headD "'"
  quote ++ String.ofList inside ++ quote

/-- A part of a formatted string: its text, and whether that is literal. -/
abbrev JoinedPart := CodeText × Bool

/-- The texts of the parts of a formatted string, one behind the other. -/
def partsText (parts : List JoinedPart) : CodeText :=
  ⟨parts.flatMap fun (part, _) => part.points⟩

/-- The parts of a formatted string put between quotes that suit all of them. -/
def joinParts (parts : List JoinedPart) : String :=
  let (done, quotes, fits) := parts.foldl
    (fun (done, quotes, fits) (part, literal) =>
      if !fits then (done, quotes, fits)
      else
        let (inside, found) := quotable quotes literal part
        if found.all (!quotes.contains ·) then (done, quotes, false)
        else (done ++ inside, found, true))
    (([] : List Char), allQuotes, true)
  if fits then
    let quote := quotes.headD "'"
    quote ++ String.ofList done ++ quote
  else
    let inside := parts.flatMap fun (part, _) =>
      (quotedWith '\'' part.points).drop 1 |>.dropLast
    "'''" ++ String.ofList inside ++ "'''"

/-! ## Expressions -/

/-- A written text, or what came in the way of writing it. -/
abbrev Written := Except Breakdown String

/-- An integer in base ten, of no more digits than are written out. -/
def integerText (n : Nat) : Written :=
  let text := toString n
  if Numeral.maxDigits < text.length then .error .digits else .ok text

def constantText (avoid : Bool) : Constant → Written
  | .none => .ok "None"
  | .true => .ok "True"
  | .false => .ok "False"
  | .ellipsis => .ok "..."
  | .integer n => integerText n
  | .float text => .ok text
  | .imaginary text => .ok text
  | .text value marked => .ok (stringText value marked)
  | .torn value marked => .ok (stringText value.text marked)
  | .bytes value => .ok (quotedBytes value)
where
  stringText (value : CodeText) (marked : Bool) : String :=
    (if marked then "u" else "") ++
      if avoid then avoiding value else quotedText value

def isInteger : Expr → Bool
  | .constant _ (.integer _) | .constant _ .true | .constant _ .false => true
  | _ => false

/-- Doubles the braces of literal text. -/
def doubleBraces (t : CodeText) : CodeText :=
  ⟨t.points.flatMap fun p =>
    if p = .char '{' || p = .char '\x7d' then [p, p] else [p]⟩

/-- An expression inside the braces of a formatted string, where no backslash
may stand, and how it is turned into text. -/
def formattedHead (value : String) (conversion : Option Char) : Written :=
  if value.toList.contains '\\' then .error .backslash
  else
    let gap := if value.startsWith "\x7b" then " " else ""
    let mark := match conversion with
      | some c => "!" ++ String.ofList [c]
      | none => ""
    .ok (gap ++ value ++ mark)

/-- A part of a formatted string that holds an expression. -/
def formattedText (head : String) (spec : Option CodeText) : CodeText :=
  let spec := match spec with
    | some s => CodeText.ofString ":" ++ s
    | none => ""
  CodeText.ofString ("\x7b" ++ head) ++ spec ++ "\x7d"

mutual

/-- The text of an expression inside something of this level; `avoid` holds
inside the braces of a formatted string. -/
def expr (avoid : Bool) (level : Nat) : Expr → Written
  | .constant _ value => constantText avoid value
  | .name _ id => return id
  | .attribute _ value attr => do
    let text ← expr avoid atomLevel value
    return text ++ (if isInteger value then " ." else ".") ++ attr
  | .subscript _ value index => do
    let text ← expr avoid atomLevel value
    let inside ←
      match index with
      | .tuple _ (e :: es) => do
        let first ← expr avoid testLevel e
        let others ← exprs avoid testLevel es
        pure (elements (first :: others))
      | e => expr avoid testLevel e
    return text ++ "[" ++ inside ++ "]"
  | .starred _ value => return "*" ++ (← expr avoid bitOrLevel value)
  | .call _ func args keywords => do
    let text ← expr avoid atomLevel func
    let plain ← exprs avoid testLevel args
    let named ← keywordTexts avoid keywords
    return text ++ "(" ++ commas (plain ++ named) ++ ")"
  | .bool _ op values => do
    let (word, own) := boolWord op
    return parens (own < level)
      (word.intercalate (← rising avoid (tighter own) values))
  | .binary _ left op right => do
    let (symbol, own) := binarySymbol op
    let (l, r) := if op = .pow then (tighter own, own) else (own, tighter own)
    let before ← expr avoid l left
    let behind ← expr avoid r right
    return parens (own < level) (before ++ " " ++ symbol ++ " " ++ behind)
  | .unary _ op operand => do
    let (symbol, own) := unarySymbol op
    return parens (own < level) (symbol ++ (← expr avoid own operand))
  | .compare _ left ops comparators => do
    let inner := tighter compareLevel
    let first ← expr avoid inner left
    let others := (ops.zip (← exprs avoid inner comparators)).map
      fun (op, text) => " " ++ compareText op ++ " " ++ text
    return parens (compareLevel < level) (first ++ "".intercalate others)
  | .named _ target value => do
    let name ← expr avoid atomLevel target
    return parens (namedLevel < level)
      (name ++ " := " ++ (← expr avoid atomLevel value))
  | .lambda _ params body => do
    let shown ← parameterTexts avoid params
    let text ← expr avoid testLevel body
    return parens (testLevel < level)
      ("lambda" ++ (if shown.isEmpty then "" else " " ++ shown) ++ ": " ++ text)
  | .conditional _ test body orelse => do
    let value ← expr avoid (tighter testLevel) body
    let condition ← expr avoid (tighter testLevel) test
    let other ← expr avoid testLevel orelse
    return parens (testLevel < level)
      (value ++ " if " ++ condition ++ " else " ++ other)
  | .dict _ items => return "\x7b" ++ commas (← itemTexts avoid items) ++ "\x7d"
  | .set _ elts =>
      return "\x7b" ++ commas (← exprs avoid testLevel elts) ++ "\x7d"
  | .list _ elts => return "[" ++ commas (← exprs avoid testLevel elts) ++ "]"
  | .tuple _ elts => do
    return parens (elts.isEmpty || tupleLevel < level)
      (elements (← exprs avoid testLevel elts))
  | .comprehension _ kind elt clauses => do
    let text ← expr avoid testLevel elt
    let inside := text ++ (← clauseTexts avoid clauses)
    match kind with
    | .list => return "[" ++ inside ++ "]"
    | .set => return "\x7b" ++ inside ++ "\x7d"
    | .generator => return "(" ++ inside ++ ")"
  | .dictComprehension _ key value clauses => do
    let name ← expr avoid testLevel key
    let text ← expr avoid testLevel value
    let behind ← clauseTexts avoid clauses
    return "\x7b" ++ name ++ ": " ++ text ++ behind ++ "\x7d"
  | .await _ value => do
    return parens (awaitLevel < level)
      ("await " ++ (← expr avoid atomLevel value))
  | .yield _ value => do
    return parens (yieldLevel < level)
      ("yield" ++ (← optional avoid atomLevel " " value))
  | .yieldFrom _ value => do
    return parens (yieldLevel < level)
      ("yield from " ++ (← expr avoid atomLevel value))
  | .joined _ parts => do
    let parts ← partTexts parts
    return "f" ++ if avoid then avoiding (partsText parts) else joinParts parts
  | .formatted _ value conversion spec => do
    let head ← formattedHead (← expr true (tighter testLevel) value) conversion
    return (formattedText head (← specText spec)).shown
  | .slice _ lower upper step => do
    let first ← optional avoid testLevel "" lower
    let last ← optional avoid testLevel "" upper
    return first ++ ":" ++ last ++ (← optional avoid testLevel ":" step)

def exprs (avoid : Bool) (level : Nat) :
    List Expr → Except Breakdown (List String)
  | [] => return []
  | e :: es => do
    let text ← expr avoid level e
    return text :: (← exprs avoid level es)

/-- Operands of which each stands one level tighter than the one before. -/
def rising (avoid : Bool) (level : Nat) :
    List Expr → Except Breakdown (List String)
  | [] => return []
  | e :: es => do
    let text ← expr avoid level e
    return text :: (← rising avoid (tighter level) es)

def optional (avoid : Bool) (level : Nat) (lead : String) :
    Option Expr → Written
  | some e => return lead ++ (← expr avoid level e)
  | none => return ""

def keywordTexts (avoid : Bool) : List Keyword → Except Breakdown (List String)
  | [] => return []
  | ⟨arg, value⟩ :: ks => do
    let lead := match arg with
      | some name => name ++ "="
      | none => "**"
    let text ← expr avoid testLevel value
    return (lead ++ text) :: (← keywordTexts avoid ks)

def itemTexts (avoid : Bool) : List DictItem → Except Breakdown (List String)
  | [] => return []
  | ⟨some key, value⟩ :: items => do
    let name ← expr avoid testLevel key
    let text ← expr avoid testLevel value
    return (name ++ ": " ++ text) :: (← itemTexts avoid items)
  | ⟨none, value⟩ :: items => do
    let text ← expr avoid bitOrLevel value
    return ("**" ++ text) :: (← itemTexts avoid items)

def clauseTexts (avoid : Bool) : List Clause → Written
  | [] => return ""
  | ⟨isAsync, target, iter, conditions⟩ :: cs => do
    let name ← expr avoid tupleLevel target
    let text ← expr avoid (tighter testLevel) iter
    let conditions ← exprs avoid (tighter testLevel) conditions
    return (if isAsync then " async for " else " for ") ++ name ++
      " in " ++ text ++ "".intercalate (conditions.map (" if " ++ ·)) ++
      (← clauseTexts avoid cs)

def paramText (avoid : Bool) : Param → Written
  | ⟨name, typeExpr, default⟩ => do
    let type ← optional avoid testLevel ": " typeExpr
    return name ++ type ++ (← optional avoid testLevel "=" default)

def paramTexts (avoid : Bool) : List Param → Except Breakdown (List String)
  | [] => return []
  | p :: ps => do
    let text ← paramText avoid p
    return text :: (← paramTexts avoid ps)

def optionalParam (avoid : Bool) :
    Option Param → Except Breakdown (Option String)
  | some p => return some (← paramText avoid p)
  | none => return none

def parameterTexts (avoid : Bool) : Parameters → Written
  | ⟨positionalOnly, positional, rest, keywordOnly, keywordRest⟩ => do
    let only ← paramTexts avoid positionalOnly
    let slash := if only.isEmpty then [] else ["/"]
    let plain ← paramTexts avoid positional
    let all ← optionalParam avoid rest
    let keyed ← paramTexts avoid keywordOnly
    let star := match all with
      | some p => ["*" ++ p]
      | none => if keyed.isEmpty then [] else ["*"]
    let spread := match ← optionalParam avoid keywordRest with
      | some p => ["**" ++ p]
      | none => []
    return commas (only ++ slash ++ plain ++ star ++ keyed ++ spread)

def partTexts : List Expr → Except Breakdown (List JoinedPart)
  | [] => return []
  | .constant _ (.text value _) :: es =>
    return (doubleBraces value, true) :: (← partTexts es)
  | .constant _ (.torn value _) :: es =>
    return (doubleBraces value.text, true) :: (← partTexts es)
  | .formatted _ value conversion spec :: es => do
    let head ← formattedHead (← expr true (tighter testLevel) value) conversion
    let part := formattedText head (← specText spec)
    return (part, false) :: (← partTexts es)
  | .joined _ parts :: es => do
    let part := partsText (← partTexts parts)
    return (part, false) :: (← partTexts es)
  | _ :: es => partTexts es

def specText : Option Expr → Except Breakdown (Option CodeText)
  | some (.joined _ parts) => return some (partsText (← partTexts parts))
  | some (.constant _ (.text value _)) => return some (doubleBraces value)
  | some (.constant _ (.torn value _)) => return some (doubleBraces value.text)
  | _ => return none

end

end BridgeBindings.Syntax.Print

namespace BridgeBindings.Syntax

/-- The text of an expression, if it has one. -/
def Expr.text (e : Expr) : Except Breakdown String :=
  Print.expr false Print.testLevel e

end BridgeBindings.Syntax
