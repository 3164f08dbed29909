import BridgeBindings.Proofs.Tables
import BridgeBindings.Usage.Graph
import Mathlib.Data.List.Sort
import Mathlib.Data.Prod.Lex
import Mathlib.Data.String.Basic

/-!
# What the worklist reaches

The list of structs to be visited runs empty before its fuel is used up: a
struct that is taken from the list gives back one step, and one that is visited
for the first time gives up its edges, of which the list gets no more than there
are. So what has been visited in the end is closed under the edges of the graph.
-/

namespace BridgeBindings

/-! ## Names and keys in order -/

theorem mem_eraseReps {α : Type} [BEq α] [LawfulBEq α] {a : α} (xs : List α) :
    a ∈ xs.eraseReps ↔ a ∈ xs := by
  have hloop : ∀ (xs : List α) (x : α) (acc : List α),
      a ∈ List.eraseRepsBy.loop (· == ·) x xs acc ↔
      a ∈ acc ∨ a = x ∨ a ∈ xs := by
    intro xs
    induction xs with
    | nil =>
        intro x acc
        simp [List.eraseRepsBy.loop, or_comm]
    | cons y ys ih =>
        intro x acc
        rw [List.eraseRepsBy.loop]
        split
        · next hxy =>
            rw [ih, eq_of_beq hxy, List.mem_cons, or_self_left]
        · rw [ih, List.mem_cons, List.mem_cons, or_assoc, or_left_comm]
  cases xs with
  | nil => rfl
  | cons x xs =>
      show a ∈ List.eraseRepsBy.loop (· == ·) x xs [] ↔ _
      rw [hloop, List.mem_cons, or_iff_right List.not_mem_nil]

theorem length_eraseReps {α : Type} [BEq α] (xs : List α) :
    xs.eraseReps.length ≤ xs.length := by
  have hloop : ∀ (xs : List α) (x : α) (acc : List α),
      (List.eraseRepsBy.loop (· == ·) x xs acc).length ≤ acc.length +
      1 + xs.length := by
    intro xs
    induction xs with
    | nil =>
        intro x acc
        simp [List.eraseRepsBy.loop]
    | cons y ys ih =>
        intro x acc
        rw [List.eraseRepsBy.loop]
        split
        · have := ih x acc
          rw [List.length_cons]
          omega
        · have := ih y (x :: acc)
          rw [List.length_cons] at this ⊢
          omega
  cases xs with
  | nil => exact Nat.le_refl 0
  | cons x xs =>
      have := hloop xs x []
      rw [List.length_nil, Nat.zero_add] at this
      rw [List.length_cons, Nat.add_comm]
      exact this

theorem mem_sortNames {name : String} {names : List String} :
    name ∈ sortNames names ↔ name ∈ names := List.mem_mergeSort

theorem mem_sortedSet {name : String} {names : List String} :
    name ∈ sortedSet names ↔ name ∈ names :=
  (mem_eraseReps _).trans mem_sortNames

namespace StructKey

theorem mem_sortedSet {k : StructKey} {keys : List StructKey} :
    k ∈ sortedSet keys ↔ k ∈ keys :=
  (mem_eraseReps _).trans List.mem_mergeSort

theorem length_sortedSet (keys : List StructKey) :
    (sortedSet keys).length ≤ keys.length :=
  Nat.le_trans (length_eraseReps _) (Nat.le_of_eq (List.length_mergeSort keys))

/-- The order of keys is total, so any way to sort them comes to the same. -/
theorem sortedSet_eq (keys : List StructKey) :
    sortedSet keys = (keys.insertionSort fun a b => a.le b).eraseReps := by
  have hle : ∀ a b : StructKey,
      a.le b = true ↔ toLex (a.package, a.name) ≤ toLex
      (b.package, b.name) := by
    intro a b
    simp [le, Prod.Lex.toLex_le_toLex]
  have htotal : Std.Total fun a b : StructKey => a.le b = true :=
    ⟨fun a b => by rw [hle, hle]; exact le_total _ _⟩
  have htrans : IsTrans StructKey fun a b => a.le b = true :=
    ⟨fun a b c => by rw [hle, hle, hle]; exact le_trans⟩
  have hantisymm : Std.Antisymm fun a b : StructKey => a.le b = true := by
    refine ⟨fun a b h h' => ?_⟩
    rw [hle] at h h'
    cases a
    cases b
    cases congrArg ofLex (le_antisymm h h')
    rfl
  have hsort := List.mergeSort_eq_insertionSort
    (fun a b : StructKey => a.le b = true) keys
  simp only [Bool.decide_eq_true] at hsort
  exact congrArg List.eraseReps hsort

end StructKey

namespace StructGraph

/-! ## Edges -/

theorem lookup_addEdges (key k : StructKey) (more : List StructKey)
    (nodes : List (StructKey × List StructKey)) :
    ((addEdges key more nodes).lookup k).getD [] =
      if k = key then ((nodes.lookup k).getD []) ++ more
        else (nodes.lookup k).getD [] := by
  induction nodes with
  | nil =>
      rw [addEdges, List.lookup_cons]
      by_cases hk : k = key
      · simp [hk]
      · have hb : (k == key) = false := by simp [hk]
        simp [hk, hb]
  | cons n nodes ih =>
      obtain ⟨k', ts⟩ := n
      rw [addEdges]
      split
      · next he =>
          subst he
          rw [List.lookup_cons, List.lookup_cons]
          by_cases hk : k = k'
          · simp [hk]
          · have hb : (k == k') = false := by simp [hk]
            simp [hk, hb]
      · next he =>
          rw [List.lookup_cons, List.lookup_cons]
          by_cases hk : k = k'
          · subst hk
            simp [he]
          · have hb : (k == k') = false := by simp [hk]
            simp only [hb]
            exact ih

theorem mem_targets_addStruct {g : StructGraph} {st : Struct}
    {a b : StructKey} : b ∈ (g.addStruct st).targets a ↔ b ∈ g.targets a ∨
      a = ⟨st.package, st.name⟩ ∧ ∃ f ∈ st.fields, b ∈ f.type.structRefs := by
  show b ∈ ((addEdges _ _ g.nodes).lookup a).getD [] ↔ _
  rw [lookup_addEdges]
  split
  · next ha => simp [targets, ha]
  · next ha => simp [targets, ha]

theorem mem_targets_addStructs {structs : List Struct}
    {g : StructGraph} {st : Struct} {f : StructField} {b : StructKey}
    (hst : st ∈ structs) (hf : f ∈ st.fields) (hb : b ∈ f.type.structRefs) :
    b ∈ (structs.foldl addStruct g).targets ⟨st.package, st.name⟩ := by
  have hkept : ∀ (structs : List Struct) (g : StructGraph),
      b ∈ g.targets ⟨st.package, st.name⟩ →
      b ∈ (structs.foldl addStruct g).targets ⟨st.package, st.name⟩ := by
    intro structs
    induction structs with
    | nil => exact fun _ h => h
    | cons st' structs ih =>
        exact fun g h => ih _ (mem_targets_addStruct.mpr (.inl h))
  induction structs generalizing g with
  | nil => exact absurd hst List.not_mem_nil
  | cons st' structs ih =>
      rcases List.mem_cons.mp hst with rfl | hst
      · exact hkept structs _
          (mem_targets_addStruct.mpr (.inr ⟨rfl, f, hf, hb⟩))
      · exact ih hst

/-! ## The worklist -/

/-- The edges of the nodes that have not been visited. -/
def unvisited (visited : List StructKey)
    (nodes : List (StructKey × List StructKey)) : Nat :=
  ((nodes.filter fun n => !visited.contains n.1).flatMap (·.2)).length

theorem unvisited_cons (visited : List StructKey)
    (n : StructKey × List StructKey)
    (nodes : List (StructKey × List StructKey)) :
    unvisited visited (n :: nodes) =
      (if n.1 ∈ visited then 0 else n.2.length) + unvisited visited nodes := by
  unfold unvisited
  by_cases hv : n.1 ∈ visited <;> simp [hv]

theorem unvisited_visit (visited : List StructKey) (key : StructKey)
    (nodes : List (StructKey × List StructKey)) :
    unvisited (key :: visited) nodes ≤ unvisited visited nodes := by
  induction nodes with
  | nil => exact Nat.le_refl _
  | cons n nodes ih =>
      rw [unvisited_cons, unvisited_cons]
      by_cases hv : n.1 ∈ visited
      · rw [if_pos hv, if_pos (List.mem_cons_of_mem _ hv)]
        omega
      · rw [if_neg hv]
        split <;> omega

/-- A struct that is visited for the first time gives up as many edges as it
adds to the list. -/
theorem unvisited_targets {visited : List StructKey} {key : StructKey}
    (hv : key ∉ visited) (nodes : List (StructKey × List StructKey)) :
    ((nodes.lookup key).getD []).length + unvisited (key :: visited) nodes ≤
      unvisited visited nodes := by
  induction nodes with
  | nil => exact Nat.le_refl _
  | cons n nodes ih =>
      rw [List.lookup_cons, unvisited_cons, unvisited_cons]
      by_cases hk : key = n.1
      · have hrest := unvisited_visit visited key nodes
        rw [hk] at hv hrest ⊢
        simp only [BEq.rfl, Option.getD_some, List.mem_cons_self,
          if_true, if_neg hv]
        omega
      · have hb : (key == n.1) = false := by simp [hk]
        have hmem : n.1 ∈ key :: visited ↔ n.1 ∈ visited := by simp [Ne.symm hk]
        simp only [hb, hmem]
        omega

/-- A visit makes the list no longer by more than the edges that
it takes away. -/
theorem length_visit_le (g : StructGraph) {visited : List StructKey}
    {key : StructKey} (hv : key ∉ visited) (waiting : List StructKey) :
    (waiting ++ StructKey.sortedSet (g.targets key)).length + unvisited
    (key :: visited) g.nodes ≤
      waiting.length + unvisited visited g.nodes := by
  have hedges := unvisited_targets hv g.nodes
  have hlength := StructKey.length_sortedSet (g.targets key)
  unfold targets at hlength ⊢
  rw [List.length_append]
  omega

/-- What a list still has to visit is on it. -/
def Followed (g : StructGraph) (visited waiting : List StructKey) : Prop :=
  ∀ a ∈ visited, ∀ b ∈ g.targets a, b ∈ visited ∨ b ∈ waiting

theorem follow_closed (g : StructGraph) {fuel : Nat}
    {visited waiting : List StructKey}
    (hfuel : waiting.length + unvisited visited g.nodes < fuel)
    (h : g.Followed visited waiting) :
    (∀ a, a ∈ visited ∨ a ∈ waiting → a ∈ g.follow visited fuel waiting) ∧
      g.Followed (g.follow visited fuel waiting) [] := by
  -- by induction on the fuel, which covers what waits and what has not been
  -- visited: a key that has been visited is dropped, and a new one puts its
  -- targets behind, of which there are fewer than fuel is left
  induction fuel generalizing visited waiting with
  | zero => exact absurd hfuel (Nat.not_lt_zero _)
  | succ fuel ih =>
      cases waiting with
      | nil =>
          rw [follow]
          · exact ⟨fun a ha => ha.resolve_right List.not_mem_nil, h⟩
          · exact fun hz => by cases hz
      | cons key waiting =>
          rw [follow]
          rw [List.length_cons] at hfuel
          split
          · next hv =>
              have hkey : key ∈ visited := by simpa using hv
              have hskip : ∀ a, a ∈ visited ∨ a ∈ key :: waiting →
                  a ∈ visited ∨ a ∈ waiting := by
                rintro a (ha | ha)
                · exact .inl ha
                · rcases List.mem_cons.mp ha with rfl | ha
                  · exact .inl hkey
                  · exact .inr ha
              obtain ⟨hall, hclosed⟩ :=
                ih (by omega) fun a ha b hb => hskip b (h a ha b hb)
              exact ⟨fun a ha => hall a (hskip a ha), hclosed⟩
          · next hv =>
              have hkey : key ∉ visited := by simpa using hv
              have hmeasure := g.length_visit_le hkey waiting
              have hnext : g.Followed (key :: visited)
                  (waiting ++ StructKey.sortedSet (g.targets key)) := by
                intro a ha b hb
                rcases List.mem_cons.mp ha with rfl | ha
                · exact .inr (List.mem_append_right _
                    (StructKey.mem_sortedSet.mpr hb))
                · rcases h a ha b hb with hb | hb
                  · exact .inl (List.mem_cons_of_mem _ hb)
                  · rcases List.mem_cons.mp hb with rfl | hb
                    · exact .inl List.mem_cons_self
                    · exact .inr (List.mem_append_left _ hb)
              obtain ⟨hall, hclosed⟩ := ih (by omega) hnext
              refine ⟨fun a ha => hall a ?_, hclosed⟩
              rcases ha with ha | ha
              · exact .inl (List.mem_cons_of_mem _ ha)
              · rcases List.mem_cons.mp ha with rfl | ha
                · exact .inl List.mem_cons_self
                · exact .inr (List.mem_append_left _ ha)

theorem unvisited_nil (nodes : List (StructKey × List StructKey)) :
    unvisited [] nodes = (nodes.flatMap (·.2)).length := by
  unfold unvisited
  rw [List.filter_eq_self.mpr]
  simp

/-- The starts are reached. -/
theorem mem_reachable_starts (g : StructGraph) {starts : List StructKey}
    {a : StructKey} (h : a ∈ starts) : a ∈ g.reachable starts := by
  refine (g.follow_closed ?_ fun a ha => absurd ha List.not_mem_nil).1
    a (.inr h)
  rw [unvisited_nil]
  exact Nat.lt_succ_self _

/-- What an edge leads to from a struct that is reached is reached as well. -/
theorem mem_reachable_targets (g : StructGraph) {starts : List StructKey}
    {a b : StructKey} (ha : a ∈ g.reachable starts) (hb : b ∈ g.targets a) :
    b ∈ g.reachable starts := by
  refine ((g.follow_closed ?_ fun a ha => absurd ha List.not_mem_nil).2 a ha b
    hb).resolve_right List.not_mem_nil
  rw [unvisited_nil]
  exact Nat.lt_succ_self _

end StructGraph

end BridgeBindings
