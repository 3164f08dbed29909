import BridgeBindings.Syntax.Tree

/-!
# Tokens

What the grammar reads. A sequence of tokens always ends with `finish`, or with
`unread` where the text could not be divided into tokens any further.
-/

namespace BridgeBindings.Syntax

inductive TokenKind where
  | name (id : String)
  | number (value : Constant)
  /-- A string literal, its opening letters and quotes included. -/
  | string (raw : List Char)
  | symbol (text : String)
  | newline
  | indent
  | dedent
  | finish
  | unread
  deriving DecidableEq, Repr, Inhabited

structure Token where
  kind : TokenKind
  pos : Position
  lastRow : Nat
  /-- How many brackets are open after the token. -/
  depth : Nat
  deriving Repr, Inhabited

/-- How the division of a text into tokens ended. A fault that overrides is the
text's error even if the grammar refuses an earlier token. -/
inductive Ending where
  | complete
  | fault (row : Nat) (overrides : Bool)
  | unclosed (row : Nat)
  deriving DecidableEq, Repr, Inhabited

structure Tokens where
  tokens : List Token
  ending : Ending

/-- Where reading stands in a text. -/
structure Cursor where
  rest : List Char
  row : Nat
  column : Nat
  deriving Repr, Inhabited

namespace Cursor

def pos (c : Cursor) : Position := ⟨c.row, c.column⟩

/-- Moves over one character. -/
def next (c : Cursor) : Cursor :=
  match c.rest with
  | [] => c
  | '\n' :: rest => ⟨rest, c.row + 1, 0⟩
  | ch :: rest => ⟨rest, c.row, c.column + ch.utf8Size⟩

def skip (c : Cursor) : Nat → Cursor
  | 0 => c
  | n + 1 => c.next.skip n

end Cursor

def keywords : List String :=
  ["False", "None", "True", "and", "as", "assert", "async", "await", "break",
    "class", "continue", "def", "del", "elif", "else", "except", "finally",
    "for", "from", "global", "if", "import", "in", "is", "lambda", "nonlocal",
    "not", "or", "pass", "raise", "return", "try", "while", "with", "yield"]

end BridgeBindings.Syntax
