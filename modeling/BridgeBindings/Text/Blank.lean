import BridgeBindings.Text.CodePoint

/-!
# White space and lines

White space is the Unicode set, line ends included. A text has two line
structures that differ only on rare characters: the rows that a line feed
ends, by which a grammar counts, and the lines that any vertical separator
ends, which is what `lines` gives. Nothing here forces the two to agree; the
documentation lookup depends on where they part.
-/

namespace BridgeBindings.Text

/-- White space: the ASCII blanks, the four information separators, and the
Unicode spaces and line ends. -/
def isBlank (c : Char) : Bool :=
  let n := c.toNat
  (9 ≤ n && n ≤ 13) || (28 ≤ n && n ≤ 32) || n == 0x85 ||
    n == 0xa0 || n == 0x1680 || (0x2000 ≤ n && n ≤ 0x200a) || n == 0x2028 ||
      n == 0x2029 || n == 0x202f || n == 0x205f ||
    n == 0x3000

/-- The characters that end a line of a text on their own. -/
def endsLine (c : Char) : Bool :=
  let n := c.toNat
  (10 ≤ n && n ≤ 13) || (28 ≤ n && n ≤ 30) || n == 0x85 ||
    n == 0x2028 || n == 0x2029

/-! ## Trimming -/

def trimEndChars (cs : List Char) : List Char :=
  cs.foldr (fun c kept => if kept.isEmpty && isBlank c then []
    else c :: kept) []

def trimEnd (s : String) : String := String.ofList (trimEndChars s.toList)

def trim (s : String) : String :=
  String.ofList (trimEndChars (s.toList.dropWhile isBlank))

/-! ## Lines -/

/-- Splits at one separator; there is always one part more than separators. -/
def splitOnChar {α : Type} [DecidableEq α] (sep : α) : List α → List (List α)
  | [] => [[]]
  | c :: cs =>
    if c = sep then [] :: splitOnChar sep cs
    else
      match splitOnChar sep cs with
      | [] => [[c]]
      | part :: parts => (c :: part) :: parts

def split (sep : Char) (s : String) : List String :=
  (splitOnChar sep s.toList).map String.ofList

section Lines

variable {α : Type} (face : α → Char)

/-- The lines of a text, without their ends. A carriage return and a line feed
together end one line, and an end at the very end of the text opens no further
line. The second argument is the current line, in reverse. -/
def linesFrom : List α → List α → List (List α)
  | [], [] => []
  | [], line => [line.reverse]
  | [c], line =>
      if endsLine (face c) then [line.reverse] else [(c :: line).reverse]
  | c :: d :: cs, line =>
    if face c = '\r' ∧ face d = '\n' then line.reverse :: linesFrom cs []
    else if endsLine (face c) then line.reverse :: linesFrom (d :: cs) []
    else linesFrom (d :: cs) (c :: line)

end Lines

def lines (s : String) : List String :=
  (linesFrom id s.toList []).map String.ofList

/-- Reads every carriage return, alone or before a line feed, as a line feed. -/
def unifyLineEnds : List Char → List Char
  | [] => []
  | '\r' :: '\n' :: cs => '\n' :: unifyLineEnds cs
  | c :: cs => (if c = '\r' then '\n' else c) :: unifyLineEnds cs

/-! ## Indentation -/

/-- Replaces each tab by the spaces up to the next multiple of eight columns;
`column` is where the text starts. -/
def expandTabsFrom (column : Nat) : List CodePoint → List CodePoint
  | [] => []
  | c :: cs =>
    if c.face = '\t' then
      let width := 8 - column % 8
      List.replicate width (.char ' ') ++ expandTabsFrom (column + width) cs
    else
      c :: expandTabsFrom (if c.face = '\n' || c.face = '\r' then 0
        else column + 1) cs

def trimStartPoints (l : List CodePoint) : List CodePoint :=
  l.dropWhile (isBlank ·.face)

/-- The least indentation of a line that is not blank. -/
def margin? (ls : List (List CodePoint)) : Option Nat :=
  (ls.filterMap fun l =>
    let content := trimStartPoints l
    if content.isEmpty then none else some (l.length - content.length)).min?

/-- Removes the indentation that a block of prose has for standing inside code:
the first line loses all of it, the others what they share, and empty lines at
both ends go. -/
def dedent (t : CodeText) : CodeText :=
  match splitOnChar (.char '\n') (expandTabsFrom 0 t.points) with
  | [] => ""
  | first :: rest =>
    let rest :=
      match margin? rest with
      | some m => rest.map (·.drop m)
      | none => rest
    let body := trimStartPoints first :: rest
    let body :=
      (body.reverse.dropWhile List.isEmpty).reverse.dropWhile List.isEmpty
    ⟨[.char '\n'].intercalate body⟩

/-- The lines of a block of prose. -/
def proseLines (t : CodeText) : List CodeText :=
  (linesFrom CodePoint.face (dedent t).points []).map CodeText.mk

end BridgeBindings.Text
