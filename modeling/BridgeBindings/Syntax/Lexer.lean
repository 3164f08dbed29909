import BridgeBindings.Syntax.Numeral
import BridgeBindings.Syntax.Token

/-!
# From text to tokens

Reading is one loop over the text. At the start of a row outside all brackets
the indentation is compared with the stack of open ones and gives `indent` and
`dedent` tokens; blank and comment rows give nothing. Tabs reach to the next
multiple of eight, and a second measure in which they are one column wide has to
agree with the first on every comparison.

The loop runs on fuel, one unit for each character and one for each token that
takes none, which covers every text.
-/

namespace BridgeBindings.Syntax.Lexer

open Text

structure Indent where
  width : Nat
  narrow : Nat
  deriving Repr, Inhabited

structure State where
  cursor : Cursor
  /-- Open indentations, innermost first; the outermost is never closed. -/
  indents : List Indent := [⟨0, 0⟩]
  /-- Open brackets and their rows, innermost first. -/
  brackets : List (Char × Nat) := []
  rowStart : Bool := true
  /-- What has been read, latest first. -/
  tokens : List Token := []
  deriving Inhabited

def maxBrackets : Nat := 200

def maxIndents : Nat := 100

namespace State

/-- The row of what stands at the end of the text: that of the
last character. -/
def endRow (s : State) : Nat :=
  if s.cursor.column = 0 && 1 < s.cursor.row then s.cursor.row - 1
    else s.cursor.row

def emit (s : State) (kind : TokenKind) (after : Cursor) : State :=
  { s with
    cursor := after
    tokens := ⟨kind, s.cursor.pos, after.row, s.brackets.length⟩ :: s.tokens }

/-- Adds a token that stands for no characters. -/
def insert (s : State) (kind : TokenKind) (row : Nat) : State :=
  { s with tokens := ⟨kind, ⟨row, 0⟩, row, s.brackets.length⟩ :: s.tokens }

end State

/-- Where one step of reading leads. -/
inductive Step where
  | more (s : State)
  | stop (s : State) (ending : Ending)

def fault (s : State) (row : Nat) (overrides : Bool) : Step :=
  .stop (s.insert .unread row) (.fault row overrides)

/-- A backslash that does not lead on to another row. One that ends the text
leaves open brackets open, and they are what is wrong. -/
def strayBackslash (s : State) (after : Cursor) : Step :=
  match s.brackets, after.rest with
  | (_, row) :: _, ['\\', '\n'] => .stop (s.insert .unread row) (.unclosed row)
  | _, _ => fault s after.row false

/-! ## The start of a row -/

/-- Measures an indentation. A row may be continued inside it by a backslash;
then what stands before the first backslash counts. -/
def indentation (s : Cursor) (at_ : Indent) (held : Option Nat) :
    Nat → Option (Cursor × Indent)
  | 0 => some (s, at_)
  | fuel + 1 =>
    match s.rest with
    | ' ' :: _ => indentation s.next ⟨at_.width + 1, at_.narrow + 1⟩ held fuel
    | '\t' :: _ =>
        indentation s.next ⟨(at_.width / 8 + 1) * 8, at_.narrow + 1⟩ held fuel
    | '\x0c' :: _ => indentation s.next ⟨0, 0⟩ held fuel
    | '\\' :: '\n' :: _ :: _ =>
      let held := match held with
        | some w => some w
        | none => if at_.width = 0 then none else some at_.width
      indentation s.next.next at_ held fuel
    | '\\' :: _ => none
    | _ =>
      match held with
      | some w => some (s, ⟨w, w⟩)
      | none => some (s, at_)

/-- Closes the indentations wider than this one. -/
def closeIndents (row width : Nat) (s : State) : List Indent → State
  | [] => s
  | [outer] => { s with indents := [outer] }
  | top :: rest =>
    if width < top.width then closeIndents row width (s.insert .dedent row) rest
    else { s with indents := top :: rest }

/-- Reads an indentation. A row outside all brackets that holds nothing more
than a comment is skipped with its end. -/
def openRow (s : State) : Step :=
  match indentation s.cursor ⟨0, 0⟩ none (s.cursor.rest.length + 1) with
  | none => fault s s.cursor.row false
  | some (after, indent) =>
    let moved := { s with cursor := after, rowStart := false }
    if !s.brackets.isEmpty then .more moved
    else if after.rest.head?.any fun c => c = '#' || c = '\n' then
      let comment := after.rest.takeWhile (· ≠ '\n')
      let atEnd := after.skip comment.length
      .more { moved with cursor := atEnd.next, rowStart := !atEnd.rest.isEmpty }
    else
      let row := if after.rest.isEmpty then moved.endRow else after.row
      match s.indents with
      | [] => .more moved
      | top :: _ =>
        if indent.width = top.width then
          if indent.narrow = top.narrow then .more moved
            else fault moved row false
        else if top.width < indent.width then
          if maxIndents ≤ s.indents.length then fault moved row false
          else if indent.narrow ≤ top.narrow then fault moved row false
          else .more { (moved.insert .indent row) with
            indents := indent :: s.indents }
        else
          let closed := closeIndents row indent.width moved s.indents
          match closed.indents with
          | [] => .more closed
          | now :: _ =>
            if now.width ≠ indent.width || now.narrow ≠ indent.narrow then
              fault moved row false
            else .more closed

/-! ## Tokens that take characters -/

def stringPrefixes : List String :=
  ["", "b", "u", "r", "f", "br", "rb", "fr", "rf"]

/-- Moves to behind the closing quotes of a string. -/
def closeString (quote : Char) (triple : Bool) (c : Cursor) :
    Nat → Option Cursor
  | 0 => none
  | fuel + 1 =>
    match c.rest with
    | [] => none
    | '\\' :: [] => none
    | '\\' :: _ :: _ => closeString quote triple c.next.next fuel
    | ch :: rest =>
      if triple then
        if ch = quote && [quote, quote].isPrefixOf rest then some (c.skip 3)
        else closeString quote triple c.next fuel
      else if ch = quote then some c.next
      else if ch = '\n' then none
      else closeString quote triple c.next fuel

/-- A string whose opening quote follows `lead` letters. -/
def readString (s : State) (lead : Nat) : Step :=
  let start := s.cursor
  let body := start.rest.drop lead
  match body with
  | quote :: rest =>
    let triple := [quote, quote].isPrefixOf rest
    let inside := start.skip (lead + if triple then 3 else 1)
    match closeString quote triple inside (inside.rest.length + 1) with
    | some after =>
      let raw := start.rest.take (start.rest.length - after.rest.length)
      .more (s.emit (.string raw) after)
    | none => fault s start.row true
  | [] => fault s start.row true

def isNameChar (c : Char) : Bool := c.isAlphanum || c = '_' || 128 ≤ c.toNat

def readName (s : State) : Step :=
  let word := s.cursor.rest.takeWhile isNameChar
  let after := s.cursor.skip word.length
  let quotes := after.rest.head?.any fun c => c = '"' || c = '\''
  let text := String.ofList word
  if quotes && stringPrefixes.contains text.toLower then
    readString s word.length
  else if isIdentifierChars word then .more (s.emit (.name text) after)
  else fault s s.cursor.row true

def readNumber (s : State) : Step :=
  match Numeral.read s.cursor.rest with
  | some (value, rest) =>
    let after := s.cursor.skip (s.cursor.rest.length - rest.length)
    .more (s.emit (.number value) after)
  | none => fault s s.cursor.row true

/-- The symbols of two and three characters; longer ones come first. -/
def longSymbols : List String :=
  ["**=", "//=", "<<=", ">>=", "...", "!=", "%=", "&=", "**", "*=", "+=", "-=",
    "->", "//", "/=", ":=", "<<", "<=", "<>", "==", ">=", ">>",
    "@=", "^=", "|="]

def closes : Char → Option Char
  | ')' => some '('
  | ']' => some '['
  | '}' => some '{'
  | _ => none

def readSymbol (s : State) (c : Char) : Step :=
  match longSymbols.find? fun t => t.toList.isPrefixOf s.cursor.rest with
  | some text => .more (s.emit (.symbol text) (s.cursor.skip text.length))
  | none =>
    let token := TokenKind.symbol (String.ofList [c])
    if c = '(' || c = '[' || c = '{' then
      if maxBrackets ≤ s.brackets.length then fault s s.cursor.row true
      else .more ({ s with brackets := (c, s.cursor.row) :: s.brackets }.emit
        token s.cursor.next)
    else
      match closes c with
      | some opening =>
        match s.brackets with
        | (found, _) :: outer =>
          if found = opening then
            .more ({ s with brackets := outer }.emit token s.cursor.next)
          else fault s s.cursor.row true
        | [] => fault s s.cursor.row true
      | none =>
        if isPrintable c then .more (s.emit token s.cursor.next)
          else fault s s.cursor.row true
where
  isPrintable (c : Char) : Bool := 32 ≤ c.toNat && c.toNat < 127

/-! ## The loop -/

def finish (s : State) : Step :=
  match s.brackets with
  | (_, row) :: _ => .stop (s.insert .unread row) (.unclosed row)
  | [] => .stop (s.insert .finish s.endRow) .complete

def step (s : State) : Step :=
  if s.rowStart then openRow s
  else
    match s.cursor.rest with
    | [] => finish s
    | c :: rest =>
      if c = ' ' || c = '\t' || c = '\x0c' then
        .more { s with cursor := s.cursor.next }
      else if c = '#' then
        let comment := s.cursor.rest.takeWhile (· ≠ '\n')
        .more { s with cursor := s.cursor.skip comment.length }
      else if c = '\n' then
        let moved := { s with cursor := s.cursor.next, rowStart := true }
        if s.brackets.isEmpty then
          .more { s.emit .newline s.cursor.next with rowStart := true }
        else .more moved
      else if c = '\\' then
        match rest with
        | '\n' :: _ :: _ => .more { s with cursor := s.cursor.next.next }
        | _ => strayBackslash s s.cursor
      else if c = '"' || c = '\'' then readString s 0
      else if isNameChar c && !c.isDigit then readName s
      else if c.isDigit || (c = '.' && rest.head?.any Char.isDigit) then
        readNumber s
      else readSymbol s c

def run (s : State) : Nat → Tokens
  | 0 => ⟨s.tokens.reverse, .complete⟩
  | fuel + 1 =>
    match step s with
    | .stop s ending => ⟨s.tokens.reverse, ending⟩
    | .more s => run s fuel

/-- The tokens of a text that starts at this position. -/
def tokens (start : Position) (text : List Char) : Tokens :=
  run { cursor := ⟨text, start.row, start.column⟩ } (2 * text.length + 4)

end BridgeBindings.Syntax.Lexer
