import BridgeBindings.Syntax.Node

/-!
# Parts are smaller

The measure by which recursion through nodes ends: the parts of a node are
together smaller than the node. A parameter counts without its default, which is
a part of the parameter list and not of the parameter.
-/

namespace BridgeBindings.Syntax.Node

noncomputable def size : Node → Nat
  | .module m => 1 + sizeOf m.body
  | .stmt s => sizeOf s
  | .expr e => sizeOf e
  | .parameters p => sizeOf p
  | .param p => 1 + sizeOf p.typeExpr
  | .keyword k => sizeOf k
  | .clause c => sizeOf c
  | .withItem w => sizeOf w
  | .handler h => sizeOf h
  | .case c => sizeOf c

noncomputable def total : List Node → Nat
  | [] => 0
  | n :: ns => n.size + total ns

@[simp] theorem total_nil : total [] = 0 := rfl

@[simp] theorem total_cons (n : Node) (ns : List Node) :
    total (n :: ns) = n.size + total ns := rfl

@[simp] theorem total_append (as bs : List Node) :
    total (as ++ bs) = total as + total bs := by
  induction as with
  | nil => simp
  | cons a as ih => simp [ih]; omega

theorem total_exprs_lt (es : List Expr) : total (exprs es) < sizeOf es := by
  induction es with
  | nil => simp [exprs]
  | cons e es ih => simp [exprs, size] at ih ⊢; omega

theorem total_exprs?_lt (e : Option Expr) : total (exprs? e) < sizeOf e := by
  cases e <;> simp [exprs?, size]

theorem total_stmts_lt (ss : List Stmt) : total (stmts ss) < sizeOf ss := by
  induction ss with
  | nil => simp [stmts]
  | cons s ss ih => simp [stmts, size] at ih ⊢; omega

theorem total_keywords_lt (ks : List Keyword) :
    total (ks.map .keyword) < sizeOf ks := by
  induction ks with
  | nil => simp
  | cons k ks ih => simp [size] at ih ⊢; omega

theorem total_clauses_lt (cs : List Clause) :
    total (cs.map .clause) < sizeOf cs := by
  induction cs with
  | nil => simp
  | cons c cs ih => simp [size] at ih ⊢; omega

theorem total_withItems_lt (ws : List WithItem) :
    total (ws.map .withItem) < sizeOf ws := by
  induction ws with
  | nil => simp
  | cons w ws ih => simp [size] at ih ⊢; omega

theorem total_handlers_lt (hs : List Handler) :
    total (hs.map .handler) < sizeOf hs := by
  induction hs with
  | nil => simp
  | cons h hs ih => simp [size] at ih ⊢; omega

theorem total_cases_lt (cs : List Case) : total (cs.map .case) < sizeOf cs := by
  induction cs with
  | nil => simp
  | cons c cs ih => simp [size] at ih ⊢; omega

theorem total_items_lt (items : List DictItem) :
    total (items.flatMap fun i => exprs? i.key) +
    total (items.map fun i => .expr i.value) <
      sizeOf items := by
  induction items with
  | nil => simp
  | cons i items ih =>
    obtain ⟨key, value⟩ := i
    have := total_exprs?_lt key
    simp [size] at ih ⊢
    omega

theorem total_params_lt (ps : List Param) :
    total (ps.map .param) + total (ps.flatMap fun q => exprs? q.default) <
    sizeOf ps := by
  induction ps with
  | nil => simp
  | cons p ps ih =>
    obtain ⟨name, typeExpr, default⟩ := p
    have := total_exprs?_lt default
    simp [size] at ih ⊢
    omega

theorem total_param?_lt (p : Option Param) :
    total (p.toList.map .param) < sizeOf p := by
  cases p with
  | none => simp
  | some p =>
    obtain ⟨name, typeExpr, default⟩ := p
    simp [size]
    omega

theorem total_ofExpr_lt (e : Expr) : total (ofExpr e) < sizeOf e := by
  cases e with
  | call p f args ks =>
    have := total_exprs_lt args
    have := total_keywords_lt ks
    simp [ofExpr, size]; omega
  | bool p op vs => have := total_exprs_lt vs; simp [ofExpr]; omega
  | compare p l ops cs => have := total_exprs_lt cs; simp [ofExpr, size]; omega
  | dict p items => have := total_items_lt items; simp [ofExpr] at this ⊢; omega
  | set p es => have := total_exprs_lt es; simp [ofExpr]; omega
  | list p es => have := total_exprs_lt es; simp [ofExpr]; omega
  | tuple p es => have := total_exprs_lt es; simp [ofExpr]; omega
  | comprehension p k e cs =>
      have := total_clauses_lt cs; simp [ofExpr, size]; omega
  | dictComprehension p k v cs =>
      have := total_clauses_lt cs; simp [ofExpr, size]; omega
  | yield p v => have := total_exprs?_lt v; simp [ofExpr]; omega
  | joined p es => have := total_exprs_lt es; simp [ofExpr]; omega
  | formatted p v c s => have := total_exprs?_lt s; simp [ofExpr, size]; omega
  | slice p a b c =>
    have := total_exprs?_lt a
    have := total_exprs?_lt b
    have := total_exprs?_lt c
    simp [ofExpr]; omega
  | _ => simp [ofExpr, size] <;> omega

theorem total_ofParameters_lt (p : Parameters) :
    total (ofParameters p) < sizeOf p := by
  obtain ⟨only, positional, rest, keyed, spread⟩ := p
  have := total_params_lt only
  have := total_params_lt positional
  have := total_params_lt keyed
  have := total_param?_lt rest
  have := total_param?_lt spread
  simp [ofParameters]
  omega

theorem total_ofStmt_lt (s : Stmt) : total (ofStmt s) < sizeOf s := by
  cases s with
  | function f =>
    obtain ⟨pos, isAsync, name, params, body, decorators, returns⟩ := f
    have := total_stmts_lt body
    have := total_exprs_lt decorators
    have := total_exprs?_lt returns
    simp [ofStmt, size]; omega
  | cls c =>
    obtain ⟨pos, name, bases, keywords, body, decorators⟩ := c
    have := total_exprs_lt bases
    have := total_keywords_lt keywords
    have := total_stmts_lt body
    have := total_exprs_lt decorators
    simp [ofStmt]; omega
  | returns v => have := total_exprs?_lt v; simp [ofStmt]; omega
  | delete ts => have := total_exprs_lt ts; simp [ofStmt]; omega
  | assign _ ts v => have := total_exprs_lt ts; simp [ofStmt, size]; omega
  | annAssign _ t a v => have := total_exprs?_lt v; simp [ofStmt, size]; omega
  | forLoop _ t i b o =>
    have := total_stmts_lt b
    have := total_stmts_lt o
    simp [ofStmt, size]; omega
  | whileLoop t b o =>
    have := total_stmts_lt b
    have := total_stmts_lt o
    simp [ofStmt, size]; omega
  | ifElse t b o =>
    have := total_stmts_lt b
    have := total_stmts_lt o
    simp [ofStmt, size]; omega
  | withBlock _ ws b =>
    have := total_withItems_lt ws
    have := total_stmts_lt b
    simp [ofStmt]; omega
  | choose s cs => have := total_cases_lt cs; simp [ofStmt, size]; omega
  | raise e c =>
    have := total_exprs?_lt e
    have := total_exprs?_lt c
    simp [ofStmt]; omega
  | tryBlock b hs o f =>
    have := total_stmts_lt b
    have := total_handlers_lt hs
    have := total_stmts_lt o
    have := total_stmts_lt f
    simp [ofStmt]; omega
  | assert t m => have := total_exprs?_lt m; simp [ofStmt, size]; omega
  | _ => simp [ofStmt, size] <;> omega

/-- The parts of a node are together smaller than the node. -/
theorem total_children_lt (n : Node) : total n.children < n.size := by
  cases n with
  | module m => have := total_stmts_lt m.body; simp [children, size]; omega
  | stmt s => exact total_ofStmt_lt s
  | expr e => exact total_ofExpr_lt e
  | parameters p => exact total_ofParameters_lt p
  | param p => have := total_exprs?_lt p.typeExpr; simp [children, size]; omega
  | keyword k =>
      obtain ⟨arg, value⟩ := k
      simp only [children, size, total_cons, total_nil, Keyword.mk.sizeOf_spec]
      omega
  | clause c =>
    obtain ⟨isAsync, target, iter, conditions⟩ := c
    have := total_exprs_lt conditions
    simp [children, size]; omega
  | withItem w =>
    obtain ⟨context, target⟩ := w
    have := total_exprs?_lt target
    simp [children, size]; omega
  | handler h =>
    obtain ⟨kind, name, body⟩ := h
    have := total_exprs?_lt kind
    have := total_stmts_lt body
    simp [children, size]; omega
  | case c =>
    obtain ⟨guard, body⟩ := c
    have := total_exprs?_lt guard
    have := total_stmts_lt body
    simp [children, size]; omega

theorem size_pos (n : Node) : 0 < n.size := by
  have := total_children_lt n
  omega

theorem total_flatMap_children_lt {ns : List Node} (h : ns ≠ []) :
    total (ns.flatMap children) < total ns := by
  induction ns with
  | nil => exact absurd rfl h
  | cons n ns ih =>
    have := total_children_lt n
    cases ns with
    | nil => simpa using this
    | cons m ms =>
      have := ih (by simp)
      simp only [List.flatMap_cons, total_append, total_cons] at this ⊢
      omega

end BridgeBindings.Syntax.Node
