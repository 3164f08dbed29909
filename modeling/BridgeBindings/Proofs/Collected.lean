import BridgeBindings.Proofs.Walks
import Mathlib.Data.List.Induction

/-!
# What each node adds to a walk

A walk knows an app object from the assignment on that makes it one, and takes a
call through its name for one across the bridge from then on. A walk is prompt
if this comes to the same as knowing all app objects beforehand. What a prompt
walk collects is read off the nodes one by one. So a prompt walk knows the app
objects that any walk over the same nodes knows, and two prompt walks collect
the same objects, whatever the order of the nodes; only the tables of values and
annotations have what comes last.
-/

namespace BridgeBindings.Syntax

theorem Node.preorder_append (xs ys : List Node) :
    preorder (xs ++ ys) = preorder xs ++ preorder ys := by
  fun_induction preorder xs with
  | case1 => rfl
  | case2 n waiting ih =>
      rw [List.cons_append, preorder, ← List.append_assoc, ih, List.cons_append]

theorem Node.preorder_eq_flatMap (nodes : List Node) :
    preorder nodes = nodes.flatMap fun n => preorder [n] := by
  induction nodes with
  | nil => rw [preorder, List.flatMap_nil]
  | cons n nodes ih =>
      rw [List.flatMap_cons, ← ih, ← preorder_append, List.singleton_append]

/-- The value that a node assigns. -/
def Node.value? : Node → Option Expr
  | .stmt (.assign _ _ value) => some value
  | .stmt (.annAssign _ _ _ value) => value
  | _ => none

/-- The annotation that a node gives a name. -/
def Node.annotation? : Node → Option Expr
  | .stmt (.annAssign _ _ typeExpr _) => some typeExpr
  | _ => none

/-- The function that a call calls. -/
def Expr.callee? : Expr → Option Expr
  | .call _ func _ _ => some func
  | _ => none

/-- The function that a node calls, or the result of which it assigns. -/
def Node.called? : Node → Option Expr
  | .expr e => e.callee?
  | n => n.value?.bind Expr.callee?

theorem Node.called?_of_value {n : Node} {value : Expr}
    (h : n.value? = some value) : n.called? = value.callee? := by
  cases n with
  | stmt s =>
      rw [called?, h]
      · rfl
      · simp
  | _ => cases h

end BridgeBindings.Syntax

namespace BridgeBindings.BridgeCalls

open Syntax

variable {bridge : Bridge} {calls known other : BridgeCalls} {n : Node}
  {nodes nodes' : List Node} {name : String}

/-! ## One node -/

section Node

variable (bridge) (known)

/-- What a node binds if these app objects are known. -/
def boundAt : Node → List Expr
  | .expr (.call pos func args keywords) =>
    if known.isReceiver bridge func
      then boundIn bridge ⟨pos, func, args, keywords⟩ else []
  | _ => []

/-- What a node passes across the bridge if these app objects are known. -/
def passedAt : Node → List Expr
  | .expr (.call pos func args keywords) =>
    if known.isReceiver bridge func
      then passedIn bridge ⟨pos, func, args, keywords⟩ else []
  | _ => []

/-- The names that a node makes app objects. -/
def appsAt (n : Node) : List String :=
  if n.value?.any (known.isBridgeCall bridge) then n.assigned else []

/-- The value that a node gives a name. -/
def valueAt? (name : String) (n : Node) : Option Expr :=
  if name ∈ n.assigned
    then n.value?.filter (!known.isBridgeCall bridge ·) else none

end Node

/-- The annotation that a node gives a name. -/
def annotationAt? (name : String) (n : Node) : Option Expr :=
  if name ∈ n.annotated then n.annotation? else none

/-- What is collected when a node has been visited: what was before, and what
the node adds. -/
structure Adds (bridge : Bridge) (calls : BridgeCalls) (n : Node)
    (after : BridgeCalls) : Prop where
  apps : ∀ name, name ∈ after.apps ↔
    name ∈ calls.apps ∨ name ∈ appsAt bridge calls n
  bound : after.bound = calls.bound ++ boundAt bridge calls n
  payloads : after.payloads = calls.payloads ++ passedAt bridge calls n
  values : ∀ name, after.values.get? name =
    (valueAt? bridge calls name n).or (calls.values.get? name)
  annotations : ∀ name, after.annotations.get? name =
    (annotationAt? name n).or (calls.annotations.get? name)

/-- A node that neither assigns nor annotates only binds and passes. -/
theorem adds_of_unassigned {after : BridgeCalls} (hvalue : n.value? = none)
    (htyped : n.annotation? = none) (happs : after.apps = calls.apps)
    (hbound : after.bound = calls.bound ++ boundAt bridge calls n)
    (hpayloads : after.payloads = calls.payloads ++ passedAt bridge calls n)
    (hvalues : after.values = calls.values)
    (hannotations : after.annotations = calls.annotations) :
    Adds bridge calls n after where
  apps name := by simp [appsAt, hvalue, happs]
  bound := hbound
  payloads := hpayloads
  values name := by simp [valueAt?, hvalue, hvalues]
  annotations name := by simp [annotationAt?, htyped, hannotations]

/-- An assignment gives its names the value, or makes them app objects. -/
theorem adds_assign {value : Expr} {annotations : Table Expr}
    (hvalue : n.value? = some value) (hbound : boundAt bridge calls n = [])
    (hpassed : passedAt bridge calls n = [])
    (hannotations : ∀ name, annotations.get? name =
      (annotationAt? name n).or (calls.annotations.get? name)) :
    Adds bridge calls n
      ({ calls with annotations }.assign bridge value n.assigned) := by
  have hsame :
      ({ calls with annotations } : BridgeCalls).isBridgeCall bridge value =
      calls.isBridgeCall bridge value := rfl
  unfold assign
  rw [hsame]
  cases hknown : calls.isBridgeCall bridge value
  · rw [if_neg Bool.false_ne_true]
    refine ⟨fun name => ?_, by
      rw [hbound, List.append_nil], by rw [hpassed, List.append_nil],
      fun name => ?_, hannotations⟩
    · simp [appsAt, hvalue, hknown]
    · refine (Table.get?_foldl_insert _ _ _ _).trans ?_
      by_cases hname : name ∈ n.assigned <;>
        simp [valueAt?, hvalue, hknown, hname, Option.filter]
  · rw [if_pos rfl]
    refine ⟨fun name => ?_, by
      rw [hbound, List.append_nil], by rw [hpassed, List.append_nil],
      fun name => ?_, hannotations⟩
    · simp [appsAt, hvalue, hknown, or_comm]
    · simp [valueAt?, hvalue, hknown, Option.filter]

theorem adds_after (bridge : Bridge) (calls : BridgeCalls) (n : Node) :
    Adds bridge calls n (calls.after bridge n) := by
  have hplain : n.value? = none → n.annotation? = none →
      boundAt bridge calls n = [] → passedAt bridge calls n = [] →
      Adds bridge calls n calls := by
    intro hvalue htyped hbound hpassed
    exact adds_of_unassigned hvalue htyped rfl (by rw [hbound, List.append_nil])
      (by rw [hpassed, List.append_nil]) rfl rfl
  cases n with
  | stmt s =>
      cases s with
      | assign span targets value =>
          exact adds_assign (n := .stmt (.assign span targets value)) rfl
            rfl rfl fun name => rfl
      | annAssign span target typeExpr value =>
          have hannotations : ∀ name, ((targetName? target).toList.foldl
              (fun t n => t.insert n typeExpr) calls.annotations).get? name =
              (annotationAt? name
                (.stmt (.annAssign span target typeExpr value))).or
                (calls.annotations.get? name) := by
            intro name
            rw [Table.get?_foldl_insert, annotationAt?]
            by_cases hname : name ∈ (targetName? target).toList <;>
              simp [Node.annotated, Node.annotation?, hname]
          cases value with
          | none =>
              refine ⟨fun name => ?_, (List.append_nil _).symm,
                (List.append_nil _).symm, fun name => ?_, hannotations⟩
              · simp [appsAt, Node.value?, after, Visitor.visit,
                  visitor, onAssignment]
              · simp [valueAt?, Node.value?, after, Visitor.visit,
                  visitor, onAssignment]
          | some value =>
              exact adds_assign
                (n := .stmt (.annAssign span target typeExpr (some value))) rfl
                rfl
                rfl hannotations
      | _ => exact hplain rfl rfl rfl rfl
  | expr e =>
      cases e with
      | call pos func args keywords =>
          show Adds bridge calls _
              (onCall bridge ⟨pos, func, args, keywords⟩ calls)
          cases hcall : calls.isReceiver bridge func
          · rw [onCall, if_neg (by simp [hcall])]
            exact hplain rfl rfl (by simp [boundAt, hcall])
              (by simp [passedAt, hcall])
          · rw [onCall_eq hcall]
            exact adds_of_unassigned rfl rfl rfl (by simp [boundAt, hcall])
              (by simp [passedAt, hcall]) rfl rfl
      | _ => exact hplain rfl rfl rfl rfl
  | _ => exact hplain rfl rfl rfl rfl

/-! ## What is known -/

theorem isReceiver_mono
    (h : ∀ name ∈ calls.apps, name ∈ known.apps) {func : Expr}
    (hfunc : calls.isReceiver bridge func = true) :
    known.isReceiver bridge func = true := by
  unfold isReceiver at hfunc ⊢
  split at hfunc
  · cases hfunc
  · simp only [Bool.and_eq_true, Bool.or_eq_true, decide_eq_true_eq,
      List.contains_iff_mem] at hfunc ⊢
    exact ⟨hfunc.1, hfunc.2.imp_right (h _)⟩

theorem isReceiver_congr (h : ∀ name, name ∈ calls.apps ↔ name ∈ known.apps)
    (func : Expr) :
    calls.isReceiver bridge func = known.isReceiver bridge func :=
  Bool.eq_iff_iff.mpr
    ⟨isReceiver_mono fun name => (h name).mp,
      isReceiver_mono fun name => (h name).mpr⟩

section Mono

variable (h : ∀ name ∈ calls.apps, name ∈ known.apps)

include h

theorem appsAt_mono :
    ∀ name ∈ appsAt bridge calls n, name ∈ appsAt bridge known n := by
  have hcall : n.value?.any (calls.isBridgeCall bridge) →
      n.value?.any (known.isBridgeCall bridge) := by
    cases n.value? with
    | none => exact id
    | some value =>
        rw [Option.any_some, Option.any_some]
        cases value with
        | call pos func args keywords => exact isReceiver_mono h
        | _ => exact id
  intro name hname
  unfold appsAt at hname ⊢
  split at hname
  · next hany => rwa [if_pos (hcall hany)]
  · cases hname

theorem boundAt_mono :
    ∀ e ∈ boundAt bridge calls n, e ∈ boundAt bridge known n := by
  intro e he
  unfold boundAt at he ⊢
  split at he
  · split at he
    · next hcall => rwa [if_pos (isReceiver_mono h hcall)]
    · cases he
  · cases he

theorem passedAt_mono :
    ∀ e ∈ passedAt bridge calls n, e ∈ passedAt bridge known n := by
  intro e he
  unfold passedAt at he ⊢
  split at he
  · split at he
    · next hcall => rwa [if_pos (isReceiver_mono h hcall)]
    · cases he
  · cases he

end Mono

/-- The function that a node calls is reached through the bridge in both
or in neither. -/
def SameAt (bridge : Bridge) (calls known : BridgeCalls) (n : Node) : Prop :=
  ∀ func, n.called? = some func →
    calls.isReceiver bridge func = known.isReceiver bridge func

namespace SameAt

variable (h : SameAt bridge calls known n)

include h

theorem isBridgeCall {value : Expr} (hvalue : n.value? = some value) :
    calls.isBridgeCall bridge value = known.isBridgeCall bridge value := by
  cases value with
  | call pos func args keywords => exact h func (Node.called?_of_value hvalue)
  | _ => rfl

theorem appsAt : appsAt bridge calls n = BridgeCalls.appsAt bridge known n := by
  unfold BridgeCalls.appsAt
  cases hvalue : n.value? with
  | none => rfl
  | some value => rw [Option.any_some, Option.any_some, h.isBridgeCall hvalue]

theorem valueAt? (name : String) :
    valueAt? bridge calls name n =
    BridgeCalls.valueAt? bridge known name n := by
  unfold BridgeCalls.valueAt?
  cases hvalue : n.value? with
  | none => rfl
  | some value =>
      rw [Option.filter_some, Option.filter_some, h.isBridgeCall hvalue]

theorem boundAt :
    boundAt bridge calls n = BridgeCalls.boundAt bridge known n := by
  unfold BridgeCalls.boundAt
  split
  · rw [h _ rfl]
  · rfl

theorem passedAt :
    passedAt bridge calls n = BridgeCalls.passedAt bridge known n := by
  unfold BridgeCalls.passedAt
  split
  · rw [h _ rfl]
  · rfl

end SameAt

/-! ## The whole walk -/

theorem upTo_snoc (bridge : Bridge) (nodes : List Node) (n : Node) :
    upTo bridge (nodes ++ [n]) = (upTo bridge nodes).after bridge n := by
  rw [upTo, List.foldl_append]
  rfl

/-- What is collected is read off the nodes, with these app objects known. -/
structure Collects (bridge : Bridge) (known : BridgeCalls) (nodes : List Node)
    (calls : BridgeCalls) : Prop where
  apps : ∀ name, name ∈ calls.apps ↔ name ∈ nodes.flatMap (appsAt bridge known)
  bound : calls.bound = nodes.flatMap (boundAt bridge known)
  payloads : calls.payloads = nodes.flatMap (passedAt bridge known)
  values : ∀ name, calls.values.get? name =
      (nodes.filterMap (valueAt? bridge known name)).getLast?
  annotations : ∀ name, calls.annotations.get? name =
      (nodes.filterMap (annotationAt? name)).getLast?

theorem Collects.perm (h : Collects bridge known nodes calls)
    (h' : Collects bridge known nodes' other) (hperm : nodes.Perm nodes') :
    calls.bound.Perm other.bound ∧ calls.payloads.Perm other.payloads := by
  rw [h.bound, h'.bound, h.payloads, h'.payloads]
  exact ⟨hperm.flatMap_right _, hperm.flatMap_right _⟩

theorem Collects.snoc {after : BridgeCalls}
    (h : Collects bridge known nodes calls) (hadds : Adds bridge calls n after)
    (hsame : SameAt bridge calls known n) :
    Collects bridge known (nodes ++ [n]) after where
  apps name := by simp [hadds.apps, h.apps, hsame.appsAt]
  bound := by simp [hadds.bound, h.bound, hsame.boundAt]
  payloads := by simp [hadds.payloads, h.payloads, hsame.passedAt]
  values name := by
    rw [hadds.values, h.values, hsame.valueAt?, List.filterMap_append]
    cases hvalue : valueAt? bridge known name n <;> simp [hvalue]
  annotations name := by
    rw [hadds.annotations, h.annotations, List.filterMap_append]
    cases htyped : annotationAt? name n <;> simp [htyped]

/-- Each call that is one across the bridge to those who know the app objects
beforehand is one to the walk when it comes to it. -/
def Follows (bridge : Bridge) (known : BridgeCalls) (nodes : List Node) :
    Prop :=
  ∀ before n later, nodes = before ++ n :: later →
    SameAt bridge (upTo bridge before) known n

theorem Follows.collects (h : Follows bridge known nodes) :
    Collects bridge known nodes (upTo bridge nodes) := by
  induction nodes using List.reverseRecOn with
  | nil =>
      exact ⟨fun name => Iff.rfl, rfl, rfl, fun name => rfl, fun name => rfl⟩
  | append_singleton nodes n ih =>
      rw [upTo_snoc]
      have hbefore : Follows bridge known nodes := by
        intro before m later hsplit
        exact h before m (later ++ [n]) (by rw [hsplit]; simp)
      exact (ih hbefore).snoc (adds_after bridge _ n) (h nodes n [] rfl)

/-- No node calls an app object, or is given the result of such a call, before
the walk knows the object. -/
def Prompt (bridge : Bridge) (nodes : List Node) : Prop :=
  ∀ before n later, nodes = before ++ n :: later →
    ∀ func, n.called? = some func →
      (upTo bridge nodes).isReceiver bridge func = true →
      (upTo bridge before).isReceiver bridge func = true

theorem prompt_iff : Prompt bridge nodes ↔ ∀ i, ∀ hi : i < nodes.length,
    ∀ func ∈ nodes[i].called?,
      (upTo bridge nodes).isReceiver bridge func = true →
      (upTo bridge (nodes.take i)).isReceiver bridge func = true := by
  constructor
  · intro h i hi func hcalled
    refine h (nodes.take i) nodes[i] (nodes.drop (i + 1)) ?_ func hcalled
    rw [List.getElem_cons_drop, List.take_append_drop]
  · intro h before n later hsplit func hcalled
    have hi : before.length < nodes.length := by
      rw [hsplit, List.length_append, List.length_cons]
      omega
    have hn : nodes[before.length] = n := by simp [hsplit]
    have htake : nodes.take before.length = before := by simp [hsplit]
    have hknown := h before.length hi func (hn ▸ hcalled)
    rwa [htake] at hknown

instance : Decidable (Prompt bridge nodes) := decidable_of_iff _ prompt_iff.symm

theorem apps_upTo_append (bridge : Bridge) (before later : List Node) :
    ∀ name ∈ (upTo bridge before).apps,
      name ∈ (upTo bridge (before ++ later)).apps := by
  induction later using List.reverseRecOn with
  | nil => simp
  | append_singleton later n ih =>
      intro name hname
      rw [← List.append_assoc, upTo_snoc]
      exact ((adds_after bridge _ n).apps name).mpr (.inl (ih name hname))

theorem Prompt.follows (h : Prompt bridge nodes) :
    Follows bridge (upTo bridge nodes) nodes := by
  intro before n later hsplit func hcalled
  refine Bool.eq_iff_iff.mpr
    ⟨isReceiver_mono ?_, h before n later hsplit func hcalled⟩
  rw [hsplit]
  exact apps_upTo_append bridge before (n :: later)

/-- All that has been collected here has been collected there. -/
structure Within (calls known : BridgeCalls) : Prop where
  apps : ∀ name ∈ calls.apps, name ∈ known.apps
  bound : ∀ e ∈ calls.bound, e ∈ known.bound
  payloads : ∀ e ∈ calls.payloads, e ∈ known.payloads

/-- A prompt walk collects what any walk over the same nodes collects. -/
theorem Prompt.within (h : Prompt bridge nodes) (hperm : nodes'.Perm nodes) :
    Within (upTo bridge nodes') (upTo bridge nodes) := by
  have hmem : ∀ n ∈ nodes', n ∈ nodes := fun n hn => hperm.mem_iff.mp hn
  have hall := h.follows.collects
  clear hperm
  induction nodes' using List.reverseRecOn with
  | nil =>
      exact ⟨fun _ h => absurd h List.not_mem_nil, fun _ h =>
        absurd h List.not_mem_nil,
      fun _ h => absurd h List.not_mem_nil⟩
  | append_singleton nodes' n ih =>
      have hbefore := ih fun m hm => hmem m (List.mem_append_left _ hm)
      have hn := hmem n (List.mem_append_right _ (List.mem_singleton_self n))
      have hadds := adds_after bridge (upTo bridge nodes') n
      rw [upTo_snoc]
      refine ⟨fun name hname => ?_, fun e he => ?_, fun e he => ?_⟩
      · rcases (hadds.apps name).mp hname with hname | hname
        · exact hbefore.apps name hname
        · exact (hall.apps name).mpr
            (List.mem_flatMap.mpr ⟨n, hn, appsAt_mono hbefore.apps name hname⟩)
      · rw [hadds.bound] at he
        rcases List.mem_append.mp he with he | he
        · exact hbefore.bound e he
        · rw [hall.bound]
          exact List.mem_flatMap.mpr ⟨n, hn, boundAt_mono hbefore.apps e he⟩
      · rw [hadds.payloads] at he
        rcases List.mem_append.mp he with he | he
        · exact hbefore.payloads e he
        · rw [hall.payloads]
          exact List.mem_flatMap.mpr ⟨n, hn, passedAt_mono hbefore.apps e he⟩

/-- Two prompt walks over the same nodes know the same app objects. -/
theorem Prompt.apps_iff (h : Prompt bridge nodes) (h' : Prompt bridge nodes')
    (hperm : nodes.Perm nodes') (name : String) :
    name ∈ (upTo bridge nodes).apps ↔ name ∈ (upTo bridge nodes').apps :=
  ⟨(h'.within hperm).apps name, (h.within hperm.symm).apps name⟩

/-- Two prompt walks over the same nodes read what they collect off the nodes in
the same way. -/
theorem Prompt.collects (h : Prompt bridge nodes) (h' : Prompt bridge nodes')
    (hperm : nodes.Perm nodes') :
    Collects bridge (upTo bridge nodes) nodes' (upTo bridge nodes') := by
  refine Follows.collects fun before n later hsplit func hcalled => ?_
  rw [h'.follows before n later hsplit func hcalled]
  exact isReceiver_congr (h'.apps_iff h hperm.symm) func

end BridgeBindings.BridgeCalls
