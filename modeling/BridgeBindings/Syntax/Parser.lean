import BridgeBindings.Syntax.Token
import BridgeBindings.Text.NormalForm

/-!
# Readers of tokens

A reader takes tokens from the front and answers a value, a refusal or a fault.
A refusal lets another alternative try; a fault ends the reading. Every answer
carries the furthest row that any alternative has looked at, because that is
where a text is wrong when all alternatives refuse it.
-/

namespace BridgeBindings.Syntax

namespace Parser

structure State where
  tokens : List Token
  /-- The row on which the last token of a statement ended. -/
  lastRow : Nat := 1
  /-- How many brackets were open after the last token. -/
  depth : Nat := 0
  reached : Nat := 1
  /-- Whether to look for causes that a plain refusal does not tell. -/
  explaining : Bool := false

inductive Reply (α : Type) where
  | ok (value : α) (s : State)
  | refuse (reached : Nat)
  | fault (row reached : Nat)

end Parser

def Parser (α : Type) := Parser.State → Parser.Reply α

namespace Parser

def pure' {α : Type} (a : α) : Parser α := fun s => .ok a s

def andThen {α β : Type} (p : Parser α)
    (f : α → Parser β) : Parser β := fun s =>
  match p s with
  | .ok a s => f a s
  | .refuse reached => .refuse reached
  | .fault row reached => .fault row reached

instance : Monad Parser where
  pure := pure'
  bind := andThen

def refuse {α : Type} : Parser α := fun s => .refuse s.reached

/-- Ends the reading because of what stands on this row. -/
def faultAt {α : Type} (row : Nat) : Parser α := fun s => .fault row s.reached

/-- Ends the reading because of what stands at the furthest place looked at. -/
def faultHere {α : Type} : Parser α := fun s => .fault s.reached s.reached

/-- The first alternative that does not refuse, from the same place. -/
def orElse {α : Type} (p q : Parser α) : Parser α := fun s =>
  match p s with
  | .refuse reached => q { s with reached := max s.reached reached }
  | reply => reply

/-- Runs a reader and stays in place; tells whether it succeeded. -/
def succeeds {α : Type} (p : Parser α) : Parser (Option (α × Nat)) := fun s =>
  match p s with
  | .ok a after =>
      .ok (some (a, after.depth))
        { s with reached := max s.reached after.reached }
  | .refuse reached => .ok none { s with reached := max s.reached reached }
  | .fault row reached => .fault row reached

def explaining : Parser Bool := fun s => .ok s.explaining s

/-- Runs a reader without looking for causes. -/
def plainly {α : Type} (p : Parser α) : Parser α := fun s =>
  match p { s with explaining := false } with
  | .ok a after => .ok a { after with explaining := s.explaining }
  | reply => reply

/-! ## Single tokens -/

/-- The next token. Where the text could not be divided into tokens, a fault. -/
def peek : Parser Token := fun s =>
  match s.tokens with
  | [] => .refuse s.reached
  | t :: _ =>
    match t.kind with
    | .unread => .fault t.pos.row (max s.reached t.pos.row)
    | _ => .ok t { s with reached := max s.reached t.pos.row }

def advance : Parser Unit := fun s =>
  match s.tokens with
  | [] => .refuse s.reached
  | t :: rest =>
    let lastRow :=
      match t.kind with
      | .newline | .indent | .dedent | .finish => s.lastRow
      | _ => t.lastRow
    .ok () { s with tokens := rest, lastRow := lastRow, depth := t.depth }

def position : Parser Position := do return (← peek).pos

/-- The row on which the last token read so far ends. -/
def endRow : Parser Nat := fun s => .ok s.lastRow s

def remaining : Parser Nat := fun s => .ok s.tokens.length s

def isSymbol (text : String) : Parser Bool := do
  return (← peek).kind == .symbol text

def isWord (word : String) : Parser Bool := do
  return (← peek).kind == .name word

/-- Takes this symbol if it is next. -/
def takeSymbol (text : String) : Parser Bool := do
  if ← isSymbol text then
    advance
    return true
  else return false

def takeWord (word : String) : Parser Bool := do
  if ← isWord word then
    advance
    return true
  else return false

def symbol (text : String) : Parser Unit := do
  if ← takeSymbol text then return () else refuse

def word (text : String) : Parser Unit := do
  if ← takeWord text then return () else refuse

def kind (k : TokenKind) : Parser Unit := do
  if (← peek).kind == k then advance else refuse

/-- The next token if it is a name and no keyword, in its normal form. -/
def peekIdentifier : Parser (Option String) := do
  match (← peek).kind with
  | .name id =>
      return if keywords.contains id then none else some (Text.normalForm id)
  | _ => return none

def identifier : Parser String := do
  match ← peekIdentifier with
  | some id =>
    advance
    return id
  | none => refuse

/-- A name directly followed by this symbol, both taken; else
nothing is taken. -/
def identifierBefore (text : String) : Parser (Option String) := fun s =>
  match (do
      let id ← identifier
      symbol text
      return id : Parser String) s with
  | .ok id after => .ok (some id) after
  | .refuse reached => .ok none { s with reached := max s.reached reached }
  | .fault row reached => .fault row reached

/-! ## Repetition -/

/-- Repeats a step from a value until it answers nothing, at most as often as
the fuel says. -/
def iterate {α : Type} (step : α → Parser (Option α)) : Nat → α → Parser α
  | 0, a => return a
  | fuel + 1, a => do
    match ← step a with
    | some next => iterate step fuel next
    | none => return a

/-- Repeats a step that takes at least one token. -/
def repeatFrom {α : Type} (a : α) (step : α → Parser (Option α)) :
    Parser α := do
  iterate step (← remaining) a

end Parser

end BridgeBindings.Syntax
