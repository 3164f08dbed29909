import BridgeBindings.Syntax.Tree

/-!
# Dotted names

A chain of attributes that starts at a name is read as one dotted name.
-/

namespace BridgeBindings.Syntax

/-- The dotted name that an expression is, if it is one. -/
def Expr.dotted? : Expr → Option String
  | .name _ id => some id
  | .attribute _ value attr => value.dotted?.map (· ++ "." ++ attr)
  | _ => none

/-- The text of a string literal. -/
def Expr.text? : Expr → Option String
  | .constant _ (.text value _) => some value
  | _ => none

/-- The text of a string literal as it is shown, torn or not. -/
def Expr.shownText? : Expr → Option String
  | .constant _ (.text value _) => some value
  | .constant _ (.torn value _) => some value.text.shown
  | _ => none

end BridgeBindings.Syntax
