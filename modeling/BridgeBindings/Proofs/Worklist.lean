import BridgeBindings.Proofs.Reachability
import Mathlib.Order.Bounds.Basic

/-!
# The worklist is exact

What the worklist visits is the least set that contains its starts and, with a
struct, all structs that its fields mention. One half is that the list leaves
nothing out; the other is that it visits nothing else, which holds for every set
of that kind: what is visited and what waits lies in it at every turn.

The loop itself has no fuel. It is told here turn by turn, with the targets
that have been visited left off the list, and each list of starts has exactly
one run. The function on fuel comes to the end of that run: struct by struct it
visits the same, since what is on its list beyond the other one has been
visited already.

An edge is there because of some struct that was added, whichever was added
first, so the order in which structs are added cannot matter.
-/

namespace BridgeBindings

/-- A struct of this list has a field that mentions another. -/
def Embeds (structs : List Struct) (a b : StructKey) : Prop :=
  ∃ st ∈ structs, a = ⟨st.package, st.name⟩ ∧
    ∃ f ∈ st.fields, b ∈ f.type.structRefs

/-- A set with all the starts, and with every struct all that it embeds. -/
structure ClosedFrom (structs : List Struct) (starts : List StructKey)
    (among : Set StructKey) : Prop where
  starts : ∀ a ∈ starts, a ∈ among
  embedded : ∀ a ∈ among, ∀ b, Embeds structs a b → b ∈ among

namespace StructGraph

/-- The graph after these structs have been added, the first one first. -/
def ofStructs (structs : List Struct) : StructGraph :=
  structs.foldl addStruct .empty

theorem mem_targets_foldl (structs : List Struct) (g : StructGraph)
    (a b : StructKey) : b ∈ (structs.foldl addStruct g).targets a ↔
    b ∈ g.targets a ∨ Embeds structs a b := by
  induction structs generalizing g with
  | nil =>
      refine ⟨.inl, fun h => h.resolve_right ?_⟩
      rintro ⟨st, hst, -⟩
      exact absurd hst List.not_mem_nil
  | cons st structs ih =>
      rw [List.foldl_cons, ih, mem_targets_addStruct, or_assoc]
      unfold Embeds
      rw [List.exists_mem_cons_iff]

theorem mem_targets_ofStructs (structs : List Struct) (a b : StructKey) :
    b ∈ (ofStructs structs).targets a ↔ Embeds structs a b := by
  have hempty : b ∉ StructGraph.empty.targets a := List.not_mem_nil
  unfold ofStructs
  rw [mem_targets_foldl, or_iff_right hempty]

/-! ## The runs of the loop -/

/-- The targets of a struct that the loop puts on its list. -/
def fresh (g : StructGraph) (visited : List StructKey) (key : StructKey) :
    List StructKey :=
  (StructKey.sortedSet (g.targets key)).filter (· ∉ visited)

/-- A run of the loop: what has been visited, what waits, and what has been
visited in the end. -/
inductive Runs (g : StructGraph) : List StructKey → List StructKey →
    List StructKey → Prop where
  | done {visited : List StructKey} : Runs g visited [] visited
  | skip {visited waiting result : List StructKey} {key : StructKey}
      (seen : key ∈ visited) (rest : Runs g visited waiting result) :
      Runs g visited (key :: waiting) result
  | visit {visited waiting result : List StructKey} {key : StructKey}
      (unseen : key ∉ visited)
      (rest : Runs g
        (key :: visited) (waiting ++ g.fresh (key :: visited) key) result) :
      Runs g visited (key :: waiting) result

namespace Runs

variable {g : StructGraph} {visited waiting result result' : List StructKey}

theorem unique (h : g.Runs visited waiting result)
    (h' : g.Runs visited waiting result') : result = result' := by
  induction h with
  | done => cases h'; rfl
  | skip seen _ ih =>
      cases h' with
      | skip _ rest => exact ih rest
      | visit unseen _ => exact absurd seen unseen
  | visit unseen _ ih =>
      cases h' with
      | skip seen _ => exact absurd seen unseen
      | visit _ rest => exact ih rest

theorem nodup (h : g.Runs visited waiting result) (hv : visited.Nodup) :
    result.Nodup := by
  induction h with
  | done => exact hv
  | skip _ _ ih => exact ih hv
  | visit unseen _ ih => exact ih (List.nodup_cons.mpr ⟨unseen, hv⟩)

/-- A run stays in every set that is closed under the edges. -/
theorem within {among : Set StructKey}
    (hclosed : ∀ a ∈ among, ∀ b ∈ g.targets a, b ∈ among)
    (h : g.Runs visited waiting result) (hv : ∀ a ∈ visited, a ∈ among)
    (hw : ∀ a ∈ waiting, a ∈ among) : ∀ a ∈ result, a ∈ among := by
  induction h with
  | done => exact hv
  | skip _ _ ih => exact ih hv fun a ha => hw a (List.mem_cons_of_mem _ ha)
  | @visit visited waiting _ key _ _ ih =>
      have hkey : key ∈ among := hw key List.mem_cons_self
      refine ih (fun a ha => ?_) fun a ha => ?_
      · rcases List.mem_cons.mp ha with rfl | ha
        · exact hkey
        · exact hv a ha
      · rcases List.mem_append.mp ha with ha | ha
        · exact hw a (List.mem_cons_of_mem _ ha)
        · exact hclosed key hkey a
            (StructKey.mem_sortedSet.mp (List.mem_filter.mp ha).1)

/-- Structs that have been visited may stand in front of the list. -/
theorem skips {seen : List StructKey} (hseen : ∀ a ∈ seen, a ∈ visited)
    (h : g.Runs visited waiting result) :
    g.Runs visited (seen ++ waiting) result := by
  induction seen with
  | nil => exact h
  | cons key seen ih =>
      exact .skip (hseen key List.mem_cons_self)
        (ih fun a ha => hseen a (List.mem_cons_of_mem key ha))

end Runs

theorem filter_unseen_cons {visited : List StructKey} {key : StructKey}
    (xs : List StructKey) : xs.filter (· ∉ key :: visited) =
      (xs.filter (· ∉ visited)).filter (· ∉ key :: visited) := by
  rw [List.filter_filter]
  refine List.filter_congr fun a _ => ?_
  by_cases hv : a ∈ visited <;> simp [hv]

/-- With enough fuel the function comes to the end of the run from every list
that has the same structs to visit. The measure is the one under which
nothing is left out. -/
theorem runs_follow (g : StructGraph) {fuel : Nat}
    {visited waiting waiting' : List StructKey}
    (hfuel : waiting.length + unvisited visited g.nodes < fuel)
    (hsame : waiting'.filter (· ∉ visited) = waiting.filter (· ∉ visited)) :
    g.Runs visited waiting' (g.follow visited fuel waiting) := by
  -- a list may hold more that has been visited than the other, which both sides
  -- skip before the next visit
  induction fuel generalizing visited waiting waiting' with
  | zero => exact absurd hfuel (Nat.not_lt_zero _)
  | succ fuel ih =>
      cases waiting with
      | nil =>
          rw [follow]
          · have hseen : ∀ a ∈ waiting', a ∈ visited := fun a ha => by
              simpa using List.filter_eq_nil_iff.mp hsame a ha
            simpa using Runs.done.skips hseen
          · exact fun hz => by cases hz
      | cons key waiting =>
          rw [List.length_cons] at hfuel
          rw [follow]
          split
          · next hv =>
              have hkey : key ∈ visited := by simpa using hv
              rw [List.filter_cons_of_neg (by simpa using hkey)] at hsame
              exact ih (by omega) hsame
          · next hv =>
              have hkey : key ∉ visited := by simpa using hv
              have hmeasure := g.length_visit_le hkey waiting
              rw [List.filter_cons_of_pos (by simpa using hkey)] at hsame
              obtain ⟨seen, waiting', rfl, hseen, -, hrest⟩ :=
                List.filter_eq_cons_iff.mp hsame
              refine Runs.skips (fun a ha => by simpa using hseen a ha)
                (.visit hkey (ih (by omega) ?_))
              rw [List.filter_append, List.filter_append,
                filter_unseen_cons waiting', hrest, ← filter_unseen_cons]
              unfold fresh
              rw [List.filter_filter]
              simp only [Bool.and_self]

/-- From every list of starts the loop has a run, to what is reachable. -/
theorem runs_reachable (g : StructGraph) (starts : List StructKey) :
    g.Runs [] starts (g.reachable starts) := by
  refine g.runs_follow ?_ rfl
  rw [unvisited_nil]
  exact Nat.lt_succ_self _

theorem runs_iff (g : StructGraph) (starts visited : List StructKey) :
    g.Runs [] starts visited ↔ visited = g.reachable starts :=
  ⟨fun h => h.unique (g.runs_reachable starts),
    fun h => h ▸ g.runs_reachable starts⟩

/-! ## The least set -/

theorem reachable_isLeast (structs : List Struct) (starts : List StructKey) :
    IsLeast {among | ClosedFrom structs starts among}
      {a | a ∈ (ofStructs structs).reachable starts} := by
  refine ⟨⟨fun a ha => mem_reachable_starts _ ha, fun a ha b hb => ?_⟩,
    fun among h a ha => ?_⟩
  · exact mem_reachable_targets _ ha
      ((mem_targets_ofStructs structs a b).mpr hb)
  · have hclosed :
        ∀ a ∈ among, ∀ b ∈ (ofStructs structs).targets a, b ∈ among :=
      fun a ha b hb =>
        h.embedded a ha b ((mem_targets_ofStructs structs a b).mp hb)
    exact (runs_reachable _ starts).within hclosed
      (fun a ha => absurd ha List.not_mem_nil) h.starts a ha

/-- Only what was added and where the list starts matters, in no order. -/
theorem closedFrom_congr {structs structs' : List Struct}
    {starts starts' : List StructKey}
    (hstructs : ∀ st, st ∈ structs' ↔ st ∈ structs)
    (hstarts : ∀ a, a ∈ starts' ↔ a ∈ starts) (among : Set StructKey) :
    ClosedFrom structs' starts' among ↔ ClosedFrom structs starts among := by
  have hembeds : ∀ a b, Embeds structs' a b ↔
      Embeds structs a b := fun a b => by
    unfold Embeds
    simp only [hstructs]
  constructor
  · exact fun h => ⟨fun a ha => h.starts a ((hstarts a).mpr ha),
      fun a ha b hb => h.embedded a ha b ((hembeds a b).mpr hb)⟩
  · exact fun h => ⟨fun a ha => h.starts a ((hstarts a).mp ha),
      fun a ha b hb => h.embedded a ha b ((hembeds a b).mp hb)⟩

/-- The loop ends from every list of starts, and visits each struct once;
what it visits is the least set that contains the starts and with a struct
all that it embeds, however the structs that were added and the starts are
ordered or repeated. -/
theorem reachable_exact (structs : List Struct) (starts : List StructKey) :
    (∀ visited, (ofStructs structs).Runs [] starts visited ↔
      visited = (ofStructs structs).reachable starts) ∧
    ((ofStructs structs).reachable starts).Nodup ∧
    IsLeast {among | ClosedFrom structs starts among}
      {a | a ∈ (ofStructs structs).reachable starts} ∧
    ∀ structs' starts', structs'.Perm structs →
    (∀ a, a ∈ starts' ↔ a ∈ starts) →
      ∀ a, a ∈ (ofStructs structs').reachable starts' ↔
        a ∈ (ofStructs structs).reachable starts := by
  refine ⟨runs_iff _ starts, (runs_reachable _ starts).nodup List.nodup_nil,
    reachable_isLeast structs starts,
    fun structs' starts' hperm hstarts a => ?_⟩
  have hleast := reachable_isLeast structs' starts'
  simp only [closedFrom_congr (fun st => hperm.mem_iff) hstarts] at hleast
  exact Set.ext_iff.mp (hleast.unique (reachable_isLeast structs starts)) a

end StructGraph

namespace Sample

open StructGraph

def mainKey (name : String) : StructKey := ⟨"main", name⟩

def embedding (name : String) (types : List TypeRef) : Struct :=
  ⟨"main", "main", name, types.map fun type => ⟨"part", type, []⟩, []⟩

/-- A circle of two, one of which is added twice and the other embeds a struct
that is never added, and a struct apart. -/
def circle : List Struct :=
  [embedding "Order" [.sequence (.struct (mainKey "Item"))],
    embedding "Item"
      [.pointer (.struct (mainKey "Order")),
        .mapping .any (.struct (mainKey "Price"))],
    embedding "Order" [.struct (mainKey "Address")], embedding "Apart"
      [.struct (mainKey "Order")],
    embedding "Address" []]

/-- The circle is gone round once. -/
theorem circle_runs : (ofStructs circle).Runs [] [mainKey "Order"]
    [mainKey "Price", mainKey "Item", mainKey "Address", mainKey "Order"] := by
  have hfresh : (ofStructs circle).fresh [mainKey "Order"] (mainKey "Order") =
        [mainKey "Address", mainKey "Item"] ∧
      (ofStructs circle).fresh [mainKey "Address", mainKey "Order"]
        (mainKey "Address") = [] ∧
      (ofStructs circle).fresh
        [mainKey "Item", mainKey "Address", mainKey "Order"] (mainKey "Item") =
        [mainKey "Price"] ∧
      (ofStructs circle).fresh
        [mainKey "Price", mainKey "Item", mainKey "Address", mainKey "Order"]
        (mainKey "Price") = [] := by
    unfold fresh
    simp only [StructKey.sortedSet_eq]
    decide
  obtain ⟨horder, haddress, hitem, hprice⟩ := hfresh
  refine .visit (by decide) ?_
  rw [horder]
  refine .visit (by decide) ?_
  rw [haddress]
  refine .visit (by decide) ?_
  rw [hitem]
  refine .visit (by decide) ?_
  rw [hprice]
  exact .done

/-- The circle and what it embeds are reached, in either order, and the struct
apart is not. -/
theorem circle_exact : (ofStructs circle).reachable [mainKey "Order"] =
      [mainKey "Price", mainKey "Item", mainKey "Address", mainKey "Order"] ∧
    circle.reverse.Perm circle ∧
    (∀ a, a ∈ [mainKey "Order", mainKey "Order"] ↔ a ∈ [mainKey "Order"]) ∧
    ∀ a, a ∈ (ofStructs circle.reverse).reachable
      [mainKey "Order", mainKey "Order"] ↔ a ∈ (ofStructs circle).reachable
      [mainKey "Order"] := by
  have hstarts : ∀ a, a ∈ [mainKey "Order", mainKey "Order"] ↔
      a ∈ [mainKey "Order"] := by simp
  obtain ⟨hruns, -, -, horders⟩ := reachable_exact circle [mainKey "Order"]
  exact ⟨((hruns _).mp circle_runs).symm, List.reverse_perm _, hstarts,
    horders _ _ (List.reverse_perm _) hstarts⟩

end Sample

end BridgeBindings
