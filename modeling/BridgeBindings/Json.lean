import BridgeBindings.Text.Quoted

/-!
# JSON values

Values with the members of objects in order, and their text over several lines,
in ASCII: a character outside it is written by its UTF-16 units.
-/

namespace BridgeBindings

inductive Json where
  | null
  | bool (value : Bool)
  | number (value : Int)
  | text (value : String)
  | torn (value : TornText)
  | array (items : List Json)
  | object (members : List (String × Json))
  deriving Repr, Inhabited

namespace Json

def texts (ss : List String) : Json := .array (ss.map .text)

/-- A text that may be torn. -/
def ofText (t : CodeText) : Json :=
  match h : t.string? with
  | some s => .text s
  | none => .torn ⟨t, h⟩

def codeTexts (ts : List CodeText) : Json := .array (ts.map ofText)

def ofOption {α : Type} (f : α → Json) : Option α → Json
  | some a => f a
  | none => .null

/-- The member of an object of this name. -/
def get? (j : Json) (name : String) : Option Json :=
  match j with
  | .object members => members.lookup name
  | _ => none

def text? : Json → Option String
  | .text s => some s
  | _ => none

def items : Json → List Json
  | .array items => items
  | _ => []

def members : Json → List (String × Json)
  | .object members => members
  | _ => []

def isTrue : Json → Bool
  | .bool b => b
  | _ => false

/-! ## Text -/

/-- The escape of a UTF-16 unit. -/
def unitEscape (n : Nat) : List Char := '\\' :: 'u' :: Text.hexDigits 4 n

def escapedChar (c : Char) : List Char :=
  match c with
  | '"' => ['\\', '"']
  | '\\' => ['\\', '\\']
  | '\n' => ['\\', 'n']
  | '\r' => ['\\', 'r']
  | '\t' => ['\\', 't']
  | '\x08' => ['\\', 'b']
  | '\x0c' => ['\\', 'f']
  | _ =>
    let n := c.toNat
    if 32 ≤ n && n < 127 then [c]
    else if n < 0x10000 then unitEscape n
    else unitEscape (0xd800 + (n - 0x10000) / 0x400) ++
      unitEscape (0xdc00 + (n - 0x10000) % 0x400)

def escapedPoint : CodePoint → List Char
  | .char c => escapedChar c
  | p => unitEscape p.value

def quotedText (t : CodeText) : String :=
  String.ofList ('"' :: t.points.flatMap escapedPoint ++ ['"'])

def quoted (s : String) : String := quotedText s

/-- A line end and the indentation behind it. -/
def lineBreak (depth : Nat) : String :=
  "\n" ++ String.ofList (List.replicate (2 * depth) ' ')

/-- Parts in brackets, each on a line of its own. -/
def block (opening closing : String) (depth : Nat) (parts : List String) :
    String :=
  if parts.isEmpty then opening ++ closing
  else
    opening ++ ",".intercalate (parts.map (lineBreak (depth + 1) ++ ·)) ++
      lineBreak depth ++ closing

mutual

def prettyAt (depth : Nat) : Json → String
  | .null => "null"
  | .bool b => if b then "true" else "false"
  | .number n => toString n
  | .text s => quoted s
  | .torn t => quotedText t.text
  | .array items => block "[" "]" depth (prettyItems (depth + 1) items)
  | .object members =>
      block "\x7b" "\x7d" depth (prettyMembers (depth + 1) members)

def prettyItems (depth : Nat) : List Json → List String
  | [] => []
  | j :: rest => prettyAt depth j :: prettyItems depth rest

def prettyMembers (depth : Nat) : List (String × Json) → List String
  | [] => []
  | (name, j) :: rest =>
      (quoted name ++ ": " ++ prettyAt depth j) :: prettyMembers depth rest

end

/-- The text of a value, indented by two. -/
def pretty (j : Json) : String := prettyAt 0 j

/-! ## Torn texts -/

mutual

/-- Whether a text inside a value is torn. -/
def isTorn : Json → Bool
  | .torn _ => true
  | .array items => anyTorn items
  | .object members => anyMemberTorn members
  | _ => false

def anyTorn : List Json → Bool
  | [] => false
  | j :: rest => isTorn j || anyTorn rest

def anyMemberTorn : List (String × Json) → Bool
  | [] => false
  | (_, j) :: rest => isTorn j || anyMemberTorn rest

end

end Json

end BridgeBindings
