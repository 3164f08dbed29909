import BridgeBindings.Syntax.Tree
import BridgeBindings.Text.Blank

/-!
# Documentation

A declaration is documented by the comment rows directly above it, or
above its first decorator. Classes and functions without such rows fall
back to the text that opens their body, fields to a comment behind them on
the row where they end.

Comments are known by row and the text by line, and the two are looked up by the
same number.
-/

namespace BridgeBindings

open Syntax

/-- The lines of a source text and its comments by row. -/
structure Annotated where
  lines : List String
  comments : List (Nat × String)
  deriving Repr

namespace Comment

def startsWithMark (line : String) : Bool :=
  (Text.trim line).toList.head? = some '#'

/-- Takes the marks off a comment, and one space behind them. -/
def unmark (raw : String) : String :=
  let text := ((Text.trim raw).toList.dropWhile (· = '#'))
  let text := match text with
    | ' ' :: rest => rest
    | _ => text
  String.ofList (Text.trimEndChars text)

def unmarkAll (block : List String) : List CodeText :=
  block.map fun raw => unmark raw

end Comment

namespace Annotated

open Comment

def comment? (a : Annotated) (row : Nat) : Option String :=
  a.comments.lookup row

/-- The line of this number, counted from one. -/
def line (a : Annotated) (number : Nat) : String :=
  (a.lines[number - 1]?).getD ""

/-- The comments on the rows above this one, as long as each line starts with a
comment mark, topmost first. -/
def blockAbove (a : Annotated) : Nat → List String
  | 0 => []
  | row + 1 =>
    if row = 0 then []
    else if startsWithMark (a.line row) then
      match a.comment? row with
      | some c => a.blockAbove row ++ [c]
      | none => []
    else []

/-- The text that opens a body, if a string alone does. -/
def openingText : List Stmt → Option CodeText
  | .expr (.constant _ (.text value _)) :: _ => some value
  | .expr (.constant _ (.torn value _)) :: _ => some value.text
  | _ => none

def firstRow (pos : Position) (decorators : List Expr) : Nat :=
  decorators.foldl (fun row d => min row d.row) pos.row

/-- The documentation of a class or function. -/
def declarationDoc (a : Annotated) (pos : Position) (decorators : List Expr)
    (body : List Stmt) : List CodeText :=
  match a.blockAbove (firstRow pos decorators) with
  | [] =>
    match openingText body with
    | some text => if text.points.isEmpty then [] else Text.proseLines text
    | none => []
  | block => unmarkAll block

def classDoc (a : Annotated) (c : ClassDef) : List CodeText :=
  a.declarationDoc c.pos c.decorators c.body

def functionDoc (a : Annotated) (f : FunctionDef) : List CodeText :=
  a.declarationDoc f.pos f.decorators f.body

/-- The documentation of an assignment. -/
def assignmentDoc (a : Annotated) (span : Span) : List CodeText :=
  match a.blockAbove span.start.row with
  | [] =>
    match a.comment? span.lastRow with
    | some c =>
        if startsWithMark (a.line span.lastRow) then [] else unmarkAll [c]
    | none => []
  | block => unmarkAll block

end Annotated

end BridgeBindings
