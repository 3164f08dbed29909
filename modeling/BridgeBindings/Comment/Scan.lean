import BridgeBindings.Text.Blank

/-!
# Finding comments

Comments are found by reading a text row by row, forgivingly: a quote that no
quote closes on its row and a character that means nothing are stepped over.
Reading stops early only at the end of the text inside a string or a bracket,
and at a row whose indentation closes to no open one; the comments before that
count. A row has at most one comment, the last.
-/

namespace BridgeBindings.Comment

/-- A string that goes on behind the end of a row. -/
structure OpenString where
  quote : Char
  triple : Bool
  deriving Repr

structure Scan where
  /-- Open indentations, innermost first. -/
  indents : List Nat := [0]
  /-- Opening brackets less closing ones. -/
  depth : Int := 0
  /-- Whether a backslash ended the row before. -/
  continued : Bool := false
  string : Option OpenString := none
  /-- Whether a row must end in a backslash for a string to go on behind it:
  from the first string of one quote that does, until some string is closed. -/
  needsBackslash : Bool := false
  deriving Repr

/-- Rows with the line feeds that end them; the last row has none. -/
def rowsFrom : List Char → List Char → List (List Char)
  | [], [] => []
  | [], row => [row.reverse]
  | c :: cs, row =>
    if c = '\n' then (c :: row).reverse :: rowsFrom cs []
      else rowsFrom cs (c :: row)

def rows (text : String) : List (List Char) := rowsFrom text.toList []

/-! ## Strings -/

/-- What follows the end of a triple-quoted string on its row, if
it ends there. -/
def afterTriple (quote : Char) : List Char → Option (List Char)
  | [] => none
  | '\\' :: [] => none
  | '\\' :: c :: rest => if c = '\n' then none else afterTriple quote rest
  | c :: rest =>
    if c = quote && [quote, quote].isPrefixOf rest then some (rest.drop 2)
    else afterTriple quote rest

/-- How a row goes on after the opening quote of a string of one quote. -/
inductive Quoted where
  | closed (rest : List Char)
  | continues
  | unclosed

def afterQuote (quote : Char) : List Char → Quoted
  | [] => .unclosed
  | '\\' :: '\n' :: _ => .continues
  | '\\' :: '\r' :: '\n' :: _ => .continues
  | '\\' :: [] => .unclosed
  | '\\' :: _ :: rest => afterQuote quote rest
  | c :: rest =>
    if c = quote then .closed rest else if c = '\n' then .unclosed
      else afterQuote quote rest

/-- What follows the end of a string of one quote that was
continued on this row. -/
def afterContinued (quote : Char) : List Char → Option (List Char)
  | [] => none
  | '\\' :: [] => none
  | '\\' :: c :: rest => if c = '\n' then none else afterContinued quote rest
  | c :: rest => if c = quote then some rest else afterContinued quote rest

def endsWithContinuation (row : List Char) : Bool :=
  match row.reverse with
  | '\n' :: '\\' :: _ => true
  | '\n' :: '\r' :: '\\' :: _ => true
  | _ => false

/-! ## Rows -/

/-- Reads what is left of a row, with fuel for each character: the state after
it and the comment found, if any. -/
def inRow (s : Scan) (found : Option (List Char)) :
    Nat → List Char → Scan × Option (List Char)
  | 0, _ => (s, found)
  | _, [] => (s, found)
  | fuel + 1, c :: cs =>
    if c = '#' then
      let comment := (c :: cs).takeWhile fun c => c ≠ '\r' && c ≠ '\n'
      inRow s (some comment) fuel ((c :: cs).drop comment.length)
    else if c = '\\' then
      match cs with
      | '\n' :: rest => inRow { s with continued := true } found fuel rest
      | '\r' :: '\n' :: rest =>
          inRow { s with continued := true } found fuel rest
      | _ => inRow s found fuel cs
    else if c = '\'' || c = '"' then
      if [c, c].isPrefixOf cs then
        match afterTriple c (cs.drop 2) with
        | some rest => inRow s found fuel rest
        | none => ({ s with string := some ⟨c, true⟩ }, found)
      else
        match afterQuote c cs with
        | .closed rest => inRow s found fuel rest
        | .continues =>
            ({ s with string := some ⟨c, false⟩, needsBackslash := true },
              found)
        | .unclosed => inRow s found fuel cs
    else if c = '(' || c = '[' || c = '{' then
      inRow { s with depth := s.depth + 1 } found fuel cs
    else if c = ')' || c = ']' || c = '\x7d' then
      inRow { s with depth := s.depth - 1 } found fuel cs
    else inRow s found fuel cs

def finishRow (s : Scan) (row : List Char) (rest : List Char) :
    Scan × Option (List Char) :=
  inRow s none (row.length + 1) rest

/-- The width of an indentation and what follows it. -/
def indentation (width : Nat) : List Char → Nat × List Char
  | ' ' :: cs => indentation (width + 1) cs
  | '\t' :: cs => indentation ((width / 8 + 1) * 8) cs
  | '\x0c' :: cs => indentation 0 cs
  | cs => (width, cs)

/-- Closes indentations down to this width; nothing if none was
of that width. -/
def closeIndents (width : Nat) (open_ : List Nat) : Option (List Nat) :=
  match open_ with
  | [] => some []
  | top :: rest =>
    if top ≤ width then some (top :: rest)
    else if (top :: rest).contains width then closeIndents width rest
    else none

/-- How reading ends: at the end of the text, or before it makes sense. -/
inductive Ending where
  | complete | broken
  deriving DecidableEq, Repr, Inhabited

/-- Reads a row that starts a statement. -/
def statementRow (s : Scan) (row : List Char) :
    Except Ending (Scan × Option (List Char)) :=
  let (width, rest) := indentation 0 row
  match rest with
  | [] => .error .complete
  | c :: _ =>
    if c = '#' then
      .ok (s, some
        (rest.reverse.dropWhile fun c => c = '\r' || c = '\n').reverse)
    else if c = '\r' || c = '\n' then .ok (s, none)
    else
      let opened := match s.indents with
        | [] => [width]
        | top :: _ => if top < width then width :: s.indents else s.indents
      match closeIndents width opened with
      | some indents => .ok (finishRow { s with indents := indents } row rest)
      | none => .error .broken

/-- Reads one row: the state after it and its comment, unless
reading ends there. -/
def readRow (s : Scan) (row : List Char) :
    Except Ending (Scan × Option (List Char)) :=
  match s.string with
  | some o =>
    let after := if o.triple then afterTriple o.quote row
      else afterContinued o.quote row
    match after with
    | some rest =>
        .ok (finishRow
          { s with string := none, needsBackslash := false } row rest)
    | none =>
      if s.needsBackslash && !endsWithContinuation row then
        .ok ({ s with string := none }, none)
      else .ok (s, none)
  | none =>
    if s.depth = 0 && !s.continued then statementRow s row
    else .ok (finishRow { s with continued := false } row row)

/-- The comments of a text by row, and how reading it ended. -/
structure Found where
  comments : List (Nat × String)
  ending : Ending
  deriving Repr, Inhabited

/-- Whether nothing is left open where the text ends. -/
def Scan.ending (s : Scan) : Ending :=
  if s.string.isNone && s.depth = 0 && !s.continued then .complete else .broken

/-- The comments of a list of rows, the first of which has this number. -/
def scanRows (s : Scan) (number : Nat) : List (List Char) → Found
  | [] => ⟨[], s.ending⟩
  | row :: rows =>
    match readRow s row with
    | .error ending => ⟨[], ending⟩
    | .ok (s, comment) =>
      let later := scanRows s (number + 1) rows
      { later with
        comments := (comment.toList.map fun c => (number, String.ofList c)) ++
          later.comments }

/-- The comments of a text by their rows, counted from one; the mark is part
of a comment. -/
def scan (text : String) : Found := scanRows {} 1 (rows text)

end BridgeBindings.Comment
