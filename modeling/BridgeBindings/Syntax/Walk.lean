import BridgeBindings.Syntax.Size

/-!
# Walking a tree

A visitor is asked about classes, functions, calls and assignments, in the order
of a walk from the top down and from left to right, and says for each whether
the walk goes on inside it. The walk keeps a list of the nodes still to be
visited, the next one first; the parts of a node go in front of what is left.
-/

namespace BridgeBindings.Syntax

structure Call where
  pos : Position
  func : Expr
  args : List Expr
  keywords : List Keyword

inductive Assignment where
  | plain (span : Span) (targets : List Expr) (value : Expr)
  | annotated (span : Span) (target typeExpr : Expr) (value : Option Expr)

def Assignment.span : Assignment → Span
  | .plain span .. | .annotated span .. => span

/-- What is asked about the nodes of a tree, with a state that is handed on. The
answer says whether to go on inside the node. -/
structure Visitor (σ : Type) where
  cls : ClassDef → σ → Bool × σ := fun _ s => (true, s)
  function : FunctionDef → σ → Bool × σ := fun _ s => (true, s)
  call : Call → σ → Bool × σ := fun _ s => (true, s)
  assignment : Assignment → σ → Bool × σ := fun _ s => (true, s)

/-- Asks the visitor about one node; all nodes it is not asked about
are gone into. -/
def Visitor.visit {σ : Type} (v : Visitor σ) (n : Node) (s : σ) : Bool × σ :=
  match n with
  | .stmt (.cls c) => v.cls c s
  | .stmt (.function f) => v.function f s
  | .stmt (.assign span targets value) =>
      v.assignment (.plain span targets value) s
  | .stmt (.annAssign span target typeExpr value) =>
    v.assignment (.annotated span target typeExpr value) s
  | .expr (.call pos func args keywords) => v.call ⟨pos, func, args, keywords⟩ s
  | _ => (true, s)

/-- Walks the trees of a list of nodes one after the other. -/
def Visitor.walkAll {σ : Type} (v : Visitor σ) : List Node → σ → σ
  | [], s => s
  | n :: waiting, s =>
    let (inside, s) := v.visit n s
    if inside then v.walkAll (n.children ++ waiting) s else v.walkAll waiting s
termination_by waiting => Node.total waiting
decreasing_by
  · have := n.total_children_lt
    simp only [Node.total_append, Node.total_cons]
    omega
  · have := n.size_pos
    simp only [Node.total_cons]
    omega

def Visitor.walk {σ : Type} (v : Visitor σ) (n : Node) (s : σ) : σ :=
  v.walkAll [n] s

/-- The nodes of a list of trees, level by level. -/
def Node.breadthFirst : List Node → List Node
  | [] => []
  | n :: level => n :: level ++ breadthFirst ((n :: level).flatMap children)
termination_by level => total level
decreasing_by exact total_flatMap_children_lt (by simp)

end BridgeBindings.Syntax
