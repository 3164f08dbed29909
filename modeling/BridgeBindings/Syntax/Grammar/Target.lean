import BridgeBindings.Syntax.Tree

/-!
# Targets of assignments

What may stand where a value is bound: names, attributes and items, and lists
and tuples of targets, in which one may collect the rest.
-/

namespace BridgeBindings.Syntax

/-- A target that stands for exactly one value. -/
def Expr.isSingleTarget : Expr → Bool
  | .name .. | .attribute .. | .subscript .. => true
  | _ => false

mutual

/-- The first part of an expression that keeps it from being a target. With
`collects`, a starred part is one. -/
def Expr.badTarget? (collects : Bool) : Expr → Option Expr
  | .name .. | .attribute .. | .subscript .. => none
  | .list _ es | .tuple _ es => badTargets? collects es
  | .starred p v =>
    if collects then
      match v with
      | .starred .. => some v
      | _ => v.badTarget? collects
    else some (.starred p v)
  | e => some e

def badTargets? (collects : Bool) : List Expr → Option Expr
  | [] => none
  | e :: es => (e.badTarget? collects).orElse fun _ => badTargets? collects es

end

end BridgeBindings.Syntax
