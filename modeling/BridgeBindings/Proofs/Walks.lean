import BridgeBindings.Bridge.Calls
import BridgeBindings.Proofs.Tables

/-!
# What a walk collects

The visitor that looks for bridge calls goes inside every node, so it is asked
about all nodes of a module, each once, from the top down and from left to
right. What it has collected in the end is a fold over that list. A visit only
adds to the objects that are bound or passed, and gives a value or an annotation
to no name but those that its node assigns; so the table of values holds what
the last node that assigned a name has given it, whichever body that node is in.
-/

namespace BridgeBindings.Syntax

/-- The nodes of a list of trees, from the top down and from left to right. -/
def Node.preorder : List Node → List Node
  | [] => []
  | n :: waiting => n :: preorder (n.children ++ waiting)
termination_by waiting => total waiting
decreasing_by
  have := n.total_children_lt
  simp only [total_append, total_cons]
  omega

theorem Visitor.walkAll_eq_foldl {σ : Type} {v : Visitor σ}
    (h : ∀ n s, (v.visit n s).1 = true) (ns : List Node) (s : σ) :
    v.walkAll ns s =
    (Node.preorder ns).foldl (fun s n => (v.visit n s).2) s := by
  fun_induction Node.preorder ns generalizing s with
  | case1 =>
      rw [walkAll]
      rfl
  | case2 n waiting ih =>
      rw [walkAll, List.foldl_cons, ← ih]
      simp only [h n s, if_true]

/-- The names that a node gives a value to. -/
def Node.assigned : Node → List String
  | .stmt (.assign _ targets _) => targets.filterMap BridgeCalls.targetName?
  | .stmt (.annAssign _ target _ (some _)) =>
      (BridgeCalls.targetName? target).toList
  | _ => []

/-- The names that a node annotates. -/
def Node.annotated : Node → List String
  | .stmt (.annAssign _ target _ _) => (BridgeCalls.targetName? target).toList
  | _ => []

/-! ## The levels of a tree -/

namespace Node

/-- The nodes so far below some nodes. -/
def level : Nat → List Node → List Node
  | 0, nodes => nodes
  | depth + 1, nodes => level depth (nodes.flatMap children)

theorem level_append (depth : Nat) (xs ys : List Node) :
    level depth (xs ++ ys) = level depth xs ++ level depth ys := by
  induction depth generalizing xs ys with
  | zero => rfl
  | succ depth ih => rw [level, List.flatMap_append, ih, level, level]

theorem level_nil (depth : Nat) : level depth [] = [] := by
  induction depth with
  | zero => rfl
  | succ depth ih => exact ih

theorem level_eq_flatMap (depth : Nat) (nodes : List Node) :
    level depth nodes = nodes.flatMap fun n => level depth [n] := by
  induction nodes with
  | nil => exact level_nil depth
  | cons n nodes ih =>
      rw [List.flatMap_cons, ← ih, ← level_append, List.singleton_append]

/-- Going level by level ends below the last level that has nodes. -/
theorem breadthFirst_eq_levels {depth : Nat} {nodes : List Node}
    (h : total nodes ≤ depth) :
    breadthFirst nodes = (List.range depth).flatMap fun d => level d nodes := by
  fun_induction breadthFirst nodes generalizing depth with
  | case1 => simp [level_nil]
  | case2 n rest ih =>
      have hbelow := total_flatMap_children_lt (List.cons_ne_nil n rest)
      obtain ⟨depth, rfl⟩ : ∃ d, depth = d + 1 := ⟨depth - 1, by omega⟩
      have hdepth : total ((n :: rest).flatMap children) ≤ depth := by omega
      rw [ih hdepth, List.range_succ_eq_map, List.flatMap_cons (x := 0),
        List.flatMap_map]
      rfl

theorem mem_breadthFirst_iff {m : Node} {nodes : List Node} :
    m ∈ breadthFirst nodes ↔ ∃ depth, m ∈ level depth nodes := by
  constructor
  · intro hm
    rw [breadthFirst_eq_levels (Nat.le_refl _)] at hm
    obtain ⟨depth, -, hdepth⟩ := List.mem_flatMap.mp hm
    exact ⟨depth, hdepth⟩
  · rintro ⟨depth, hm⟩
    have hbound : depth < max (total nodes) (depth + 1) := by omega
    rw [breadthFirst_eq_levels (Nat.le_max_left (total nodes) (depth + 1))]
    exact List.mem_flatMap.mpr ⟨depth, List.mem_range.mpr hbound, hm⟩

theorem mem_breadthFirst_parts {m : Node} {nodes : List Node} :
    m ∈ breadthFirst nodes ↔ ∃ n ∈ nodes, m ∈ breadthFirst [n] := by
  simp only [mem_breadthFirst_iff]
  constructor
  · rintro ⟨depth, hm⟩
    rw [level_eq_flatMap] at hm
    obtain ⟨n, hn, hm⟩ := List.mem_flatMap.mp hm
    exact ⟨n, hn, depth, hm⟩
  · rintro ⟨n, hn, depth, hm⟩
    refine ⟨depth, ?_⟩
    rw [level_eq_flatMap]
    exact List.mem_flatMap.mpr ⟨n, hn, hm⟩

end Node

end BridgeBindings.Syntax

namespace BridgeBindings

open Syntax

namespace Table

variable {α : Type}

theorem get?_foldl_insert (names : List String) (value : α) (t : Table α)
    (name : String) : (names.foldl (fun t n => t.insert n value) t).get? name =
      if name ∈ names then some value else t.get? name := by
  induction names generalizing t with
  | nil => rfl
  | cons n names ih =>
      rw [List.foldl_cons, ih, get?_insert]
      by_cases hname : name ∈ names
      · rw [if_pos hname, if_pos (List.mem_cons_of_mem n hname)]
      · simp only [hname, if_false, List.mem_cons, or_false]

end Table

namespace BridgeCalls

variable {bridge : Bridge} {calls : BridgeCalls} {n : Node} {nodes : List Node}
    {name : String}

/-! ## One visit -/

/-- What is collected when one more node has been visited. -/
def after (bridge : Bridge) (calls : BridgeCalls) (n : Node) : BridgeCalls :=
  ((visitor bridge).visit n calls).2

/-- What a keyword of a call across the bridge binds. -/
def boundByKeyword (bridge : Bridge) (k : Keyword) : List Expr :=
  if k.arg = some bridge.bindKeyword then (displayed? k.value).getD [] else []

/-- What a keyword of a call across the bridge passes. -/
def passedByKeyword (bridge : Bridge) (binds : Bool) (k : Keyword) :
    List Expr :=
  if binds ∨ k.arg = none ∨
    (k.arg = some bridge.bindKeyword ∧ (displayed? k.value).isSome) then []
  else [k.value]

/-- Whether a call across the bridge binds its arguments. -/
def binds (bridge : Bridge) (c : Call) : Bool :=
  bridge.bindMethods.contains (methodName c.func)

/-- The objects that a call across the bridge binds. -/
def boundIn (bridge : Bridge) (c : Call) : List Expr :=
  (if binds bridge c then c.args.flatMap boundBy else []) ++
    c.keywords.flatMap (boundByKeyword bridge)

/-- The objects that a call across the bridge passes. -/
def passedIn (bridge : Bridge) (c : Call) : List Expr :=
  (if binds bridge c then [] else c.args.filter (!·.isStarred)) ++
    c.keywords.flatMap (passedByKeyword bridge (binds bridge c))

theorem onKeyword_eq (b : Bool) (k : Keyword) :
    onKeyword bridge b calls k = { calls with
      bound := calls.bound ++ boundByKeyword bridge k
      payloads := calls.payloads ++ passedByKeyword bridge b k } := by
  unfold onKeyword boundByKeyword passedByKeyword
  cases harg : k.arg with
  | none => simp
  | some name =>
      by_cases hname : name = bridge.bindKeyword
      · cases hshown : displayed? k.value <;> cases b <;> simp [hname]
      · cases b <;> simp [hname]

theorem onKeywords_eq (b : Bool) (ks : List Keyword) :
    ks.foldl (onKeyword bridge b) calls = { calls with
      bound := calls.bound ++ ks.flatMap (boundByKeyword bridge)
      payloads := calls.payloads ++
      ks.flatMap (passedByKeyword bridge b) } := by
  induction ks generalizing calls with
  | nil => simp
  | cons k ks ih => simp [ih, onKeyword_eq, List.append_assoc]

/-- A call across the bridge adds what it binds and what it passes. -/
theorem onCall_eq {c : Call} (h : calls.isReceiver bridge c.func = true) :
    onCall bridge c calls = { calls with
      bound := calls.bound ++ boundIn bridge c
      payloads := calls.payloads ++ passedIn bridge c } := by
  unfold onCall boundIn passedIn binds
  rw [if_pos h]
  dsimp only
  rw [onKeywords_eq]
  split <;> simp

/-- What a visit can do: give names a value, take a call into account, or
neither. It annotates no name but those of its node. -/
theorem after_cases (bridge : Bridge) (calls : BridgeCalls) (n : Node) :
    ∃ annotations : Table Expr,
      (∀ name, name ∉ n.annotated →
        annotations.get? name = calls.annotations.get? name) ∧
    (calls.after bridge n = { calls with annotations } ∨
      (∃ value, calls.after bridge n = { calls with
        annotations }.assign bridge value n.assigned) ∨
      ∃ c : Call, calls.isReceiver bridge c.func = true ∧
      calls.after bridge n = { calls with
        annotations
        bound := calls.bound ++ boundIn bridge c
        payloads := calls.payloads ++ passedIn bridge c }) := by
  unfold after Visitor.visit
  split
  · exact ⟨calls.annotations, fun _ _ => rfl, .inl rfl⟩
  · exact ⟨calls.annotations, fun _ _ => rfl, .inl rfl⟩
  · exact ⟨calls.annotations, fun _ _ => rfl, .inr (.inl ⟨_, rfl⟩)⟩
  · next target typeExpr value =>
      refine ⟨_, fun name hname =>
        (Table.get?_foldl_insert (targetName? target).toList typeExpr
        calls.annotations name).trans (if_neg hname), ?_⟩
      cases value with
      | none => exact .inl rfl
      | some value => exact .inr (.inl ⟨value, rfl⟩)
  · next pos func args keywords =>
      refine ⟨calls.annotations, fun _ _ => rfl, ?_⟩
      by_cases hr : calls.isReceiver bridge func = true
      · exact .inr (.inr ⟨⟨pos, func, args, keywords⟩, hr, onCall_eq hr⟩)
      · exact .inl (if_neg hr)
  · exact ⟨calls.annotations, fun _ _ => rfl, .inl rfl⟩

theorem values_after (h : name ∉ n.assigned) :
    (calls.after bridge n).values.get? name = calls.values.get? name := by
  obtain ⟨annotations, -, he | ⟨value, he⟩ | ⟨c, -, he⟩⟩ :=
    after_cases bridge calls n
  · rw [he]
  · rw [he]
    unfold assign
    split
    · rfl
    · exact (Table.get?_foldl_insert _ _ _ _).trans (if_neg h)
  · rw [he]

theorem annotations_after (h : name ∉ n.annotated) :
    (calls.after bridge n).annotations.get? name =
    calls.annotations.get? name := by
  obtain ⟨annotations, hsame, he | ⟨value, he⟩ | ⟨c, -, he⟩⟩ :=
    after_cases bridge calls n
  · rw [he, hsame name h]
  · rw [he, ← hsame name h]
    unfold assign
    split <;> rfl
  · rw [he, hsame name h]

/-- What has been collected stays collected. -/
theorem collected_after (bridge : Bridge) (calls : BridgeCalls) (n : Node) :
    (∀ e ∈ calls.bound, e ∈ (calls.after bridge n).bound) ∧
      ∀ e ∈ calls.payloads, e ∈ (calls.after bridge n).payloads := by
  obtain ⟨annotations, -, he | ⟨value, he⟩ | ⟨c, -, he⟩⟩ :=
    after_cases bridge calls n
  · rw [he]
    exact ⟨fun _ h => h, fun _ h => h⟩
  · rw [he]
    unfold assign
    split <;> exact ⟨fun _ h => h, fun _ h => h⟩
  · rw [he]
    exact ⟨fun _ h => List.mem_append_left _ h, fun _ h =>
      List.mem_append_left _ h⟩

/-- An assignment gives its names the value, unless it is the result of a call
across the bridge. -/
theorem values_after_assign {span : Span} {targets : List Expr} {value : Expr}
    (hvalue : calls.isBridgeCall bridge value = false)
    (h : name ∈ targets.filterMap targetName?) :
    (calls.after bridge (.stmt (.assign span targets value))).values.get? name =
    some value := by
  show (calls.assign bridge value _).values.get? name = _
  unfold assign
  rw [hvalue, if_neg Bool.false_ne_true]
  exact (Table.get?_foldl_insert _ _ _ _).trans (if_pos h)

/-! ## The whole walk -/

/-- What is collected when these nodes have been visited. -/
def upTo (bridge : Bridge) (nodes : List Node) : BridgeCalls :=
  nodes.foldl (after bridge) {}

theorem collect_eq (bridge : Bridge) (tree : Module) :
    collect bridge tree = upTo bridge (Node.preorder [.module tree]) := by
  refine Visitor.walkAll_eq_foldl (fun n calls => ?_) _ _
  unfold Visitor.visit
  split <;> rfl

theorem values_foldl (h : ∀ n ∈ nodes, name ∉ n.assigned) :
    (nodes.foldl (after bridge) calls).values.get? name =
    calls.values.get? name :=
  List.foldlRecOn (motive := fun acc : BridgeCalls =>
    acc.values.get? name = calls.values.get? name) nodes _ rfl
    fun _ ih n hn => (values_after (h n hn)).trans ih

theorem annotations_foldl (h : ∀ n ∈ nodes, name ∉ n.annotated) :
    (nodes.foldl (after bridge) calls).annotations.get? name =
    calls.annotations.get? name :=
  List.foldlRecOn (motive := fun acc : BridgeCalls =>
    acc.annotations.get? name = calls.annotations.get? name) nodes _ rfl
    fun _ ih n hn => (annotations_after (h n hn)).trans ih

theorem collected_foldl (bridge : Bridge) (calls : BridgeCalls)
    (nodes : List Node) :
    (∀ e ∈ calls.bound, e ∈ (nodes.foldl (after bridge) calls).bound) ∧
      ∀ e ∈ calls.payloads, e ∈ (nodes.foldl (after bridge) calls).payloads :=
  List.foldlRecOn (motive := fun acc : BridgeCalls =>
    (∀ e ∈ calls.bound, e ∈ acc.bound) ∧ ∀ e ∈ calls.payloads,
      e ∈ acc.payloads) nodes _
    ⟨fun _ h => h, fun _ h => h⟩ fun acc ih n _ =>
      ⟨fun e he => (collected_after bridge acc n).1 e (ih.1 e he),
        fun e he => (collected_after bridge acc n).2 e (ih.2 e he)⟩

/-- The last assignment of a name is what its value in the table comes from. -/
theorem value_of_last {tree : Module} {before later : List Node} {span : Span}
    {targets : List Expr} {value : Expr}
    (hwalk : Node.preorder [.module tree] = before ++
      .stmt (.assign span targets value) :: later)
    (hname : name ∈ targets.filterMap targetName?)
    (hvalue : (upTo bridge before).isBridgeCall bridge value = false)
    (hlast : ∀ n ∈ later, name ∉ n.assigned) :
    (collect bridge tree).values.get? name = some value := by
  rw [collect_eq, upTo, hwalk, List.foldl_append, List.foldl_cons,
    values_foldl hlast]
  exact values_after_assign hvalue hname

/-- A name that no node annotates has no annotation. -/
theorem annotations_none {tree : Module}
    (h : ∀ n ∈ Node.preorder [.module tree], name ∉ n.annotated) :
    (collect bridge tree).annotations.get? name = none := by
  rw [collect_eq, upTo, annotations_foldl h]
  rfl

/-- What a call across the bridge binds or passes is collected. -/
theorem collected_of_call {tree : Module} {before later : List Node} {c : Call}
    (hwalk : Node.preorder [.module tree] =
      before ++ .expr (.call c.pos c.func c.args c.keywords) :: later)
    (hcall : (upTo bridge before).isReceiver bridge c.func = true) :
    (∀ e ∈ boundIn bridge c, e ∈ (collect bridge tree).bound) ∧
      ∀ e ∈ passedIn bridge c, e ∈ (collect bridge tree).payloads := by
  rw [collect_eq, upTo, hwalk, List.foldl_append, List.foldl_cons]
  have hvisit : after bridge (before.foldl (after bridge) {})
      (.expr (.call c.pos c.func c.args c.keywords)) = _ := onCall_eq hcall
  rw [hvisit]
  obtain ⟨hbound, hpassed⟩ := collected_foldl bridge { upTo bridge before with
    bound := (upTo bridge before).bound ++ boundIn bridge c
    payloads := (upTo bridge before).payloads ++ passedIn bridge c } later
  exact ⟨fun e he => hbound e (List.mem_append_right _ he),
    fun e he => hpassed e (List.mem_append_right _ he)⟩

/-- A module that does not know the bridge binds nothing. -/
theorem bound_of_unknown (h : bridge.localName = none) (tree : Module) :
    (collect bridge tree).bound = [] := by
  have hreceiver : ∀ acc : BridgeCalls, acc.apps = [] → ∀ func,
      acc.isReceiver bridge func = false := by
    intro acc hnone func
    unfold isReceiver
    split
    · rfl
    · rw [h, hnone]
      simp
  rw [collect_eq]
  refine (List.foldlRecOn
    (motive := fun acc : BridgeCalls => acc.apps = [] ∧ acc.bound = [])
    (Node.preorder [.module tree]) _ ⟨rfl, rfl⟩ fun acc ih n _ => ?_).2
  obtain ⟨annotations, -, he | ⟨value, he⟩ | ⟨c, hcall, -⟩⟩ :=
    after_cases bridge acc n
  · rw [he]
    exact ih
  · have hvalue : ({ acc with annotations } : BridgeCalls).isBridgeCall bridge
        value = false := by
      unfold isBridgeCall
      split
      · exact hreceiver _ ih.1 _
      · rfl
    rw [he, assign, hvalue, if_neg Bool.false_ne_true]
    exact ih
  · rw [hreceiver acc ih.1] at hcall
    cases hcall

end BridgeCalls

end BridgeBindings
