import BridgeBindings.Proofs.Collected
import BridgeBindings.Proofs.Crowding
import BridgeBindings.Proofs.Samples

/-!
# Where an import stands

The imports of a module are taken level by level. So of all imports of a name
the deepest holds, and the last of those that stand as deep. Whether an import
is at module level or inside a function or a class does not matter: the last one
at module level is left alone only by imports that stand less deep, or that come
before it and stand as deep.
-/

namespace BridgeBindings.Syntax

/-- A node with the number of nodes around it, and whether a function or a class
is among these. -/
structure Placed where
  depth : Nat
  inner : Bool
  node : Node

namespace Node

/-- Whether what is in a node belongs to a function or a class. -/
def encloses : Node → Bool
  | .stmt (.function _) | .stmt (.cls _) => true
  | _ => false

/-- The nodes of a list of trees where they stand. Statements come in the
order of the text. -/
def outline (depth : Nat) (inner : Bool) : List Node → List Placed
  | [] => []
  | n :: rest => ⟨depth, inner, n⟩ ::
      (outline (depth + 1) (inner || n.encloses) n.children ++
        outline depth inner rest)
termination_by nodes => total nodes
decreasing_by
  · have := n.total_children_lt
    simp only [total_cons]
    omega
  · have := n.size_pos
    simp only [total_cons]
    omega

variable {depth : Nat} {inner : Bool} {nodes : List Node}

/-- Without their places the nodes are those that a walk comes by. -/
theorem outline_nodes : (outline depth inner nodes).map (·.node) =
    preorder nodes := by
  fun_induction outline depth inner nodes with
  | case1 => rw [preorder, List.map_nil]
  | case2 depth inner n rest ihchildren ihrest =>
      rw [List.map_cons, List.map_append, ihchildren, ihrest, preorder,
        preorder_append]

theorem le_depth_of_mem_outline {p : Placed}
    (h : p ∈ outline depth inner nodes) : depth ≤ p.depth := by
  fun_induction outline depth inner nodes with
  | case1 => cases h
  | case2 depth inner n rest ihchildren ihrest =>
      rcases List.mem_cons.mp h with rfl | h
      · exact Nat.le_refl depth
      · rcases List.mem_append.mp h with h | h
        · exact Nat.le_of_succ_le (ihchildren h)
        · exact ihrest h

/-- What stands so far below some nodes is their level. -/
theorem outline_level (below : Nat) :
    ((outline depth inner nodes).filter (·.depth = depth + below)).map
      (·.node) = level below nodes := by
  fun_induction outline depth inner nodes generalizing below with
  | case1 => rw [level_nil, List.filter_nil, List.map_nil]
  | case2 depth inner n rest ihchildren ihrest =>
      have hsplit : level below (n :: rest) = level below [n] ++
          level below rest :=
        level_append below [n] rest
      rw [hsplit, ← ihrest]
      cases below with
      | zero =>
          -- what is inside the first node is already too deep
          have hnone :
              (outline (depth + 1) (inner || n.encloses) n.children).filter
              (·.depth = depth + 0) = [] := by
            simp only [List.filter_eq_nil_iff, decide_eq_true_eq]
            intro p hp
            have hdeeper := le_depth_of_mem_outline hp
            omega
          rw [List.filter_cons_of_pos (by simp), List.filter_append, hnone]
          rfl
      | succ below =>
          -- the first node is not deep enough, and its parts are one nearer to
          -- the level
          have hdeeper : ∀ p : Placed, decide (p.depth = depth + (below + 1)) =
              decide (p.depth = depth + 1 + below) := by
            intro p
            rw [Nat.add_assoc, Nat.add_comm 1]
          have hlevel : level (below + 1) [n] = level below n.children := by
            rw [level, List.flatMap_singleton]
          rw [List.filter_cons_of_neg (by simp), List.filter_append,
            List.map_append, hlevel, ← ihchildren below]
          simp only [hdeeper]

end Node

end BridgeBindings.Syntax

namespace BridgeBindings.Imports

open Syntax

/-- An import of a name: how deep it stands, whether inside a function or a
class, and what the name then stands for. -/
structure Standing where
  depth : Nat
  inner : Bool
  binding : Binding
  deriving DecidableEq

section Standing

variable (tree : Module) (module : String) (isPackage : Bool) (name : String)

/-- What a node makes a name stand for. -/
def bound (n : Node) : List Binding :=
  ((ofNode module isPackage n).filter (·.1 = name)).map (·.2)

/-- The imports of a name in a module, in the order of the text. -/
def standing : List Standing :=
  (Node.outline 0 false [.module tree]).flatMap fun p =>
    (bound module isPackage name p.node).map fun b => ⟨p.depth, p.inner, b⟩

/-- The imports of a name that are not inside a function or a class. -/
def atModuleLevel : List Standing :=
  (standing tree module isPackage name).filter (!·.inner)

end Standing

/-- No other of these imports stands deeper, and none that comes later
stands as deep. -/
def Prevails (imports : List Standing) (i : Standing) : Prop :=
  ∃ before later, imports = before ++ i :: later ∧
    (∀ j ∈ before, j.depth ≤ i.depth) ∧ ∀ j ∈ later, j.depth < i.depth

namespace Prevails

variable {imports : List Standing} {i : Standing}

theorem mem (h : Prevails imports i) : i ∈ imports := by
  obtain ⟨before, later, rfl, -, -⟩ := h
  exact List.mem_append_right _ List.mem_cons_self

theorem depth_le (h : Prevails imports i) {j : Standing} (hj : j ∈ imports) :
    j.depth ≤ i.depth := by
  obtain ⟨before, later, rfl, hbefore, hlater⟩ := h
  rcases List.mem_append.mp hj with hj | hj
  · exact hbefore j hj
  · rcases List.mem_cons.mp hj with rfl | hj
    · exact Nat.le_refl _
    · exact Nat.le_of_lt (hlater j hj)

/-- One of some imports prevails. -/
theorem exists_of_ne_nil (h : imports ≠ []) : ∃ i, Prevails imports i := by
  induction imports using List.reverseRecOn with
  | nil => exact absurd rfl h
  | append_singleton imports last ih =>
      by_cases hfirst : imports = []
      · subst hfirst
        exact ⟨last, [], [], rfl, by simp, by simp⟩
      · obtain ⟨i, hi⟩ := ih hfirst
        by_cases hdepth : i.depth ≤ last.depth
        · exact ⟨last, imports, [], rfl, fun j hj =>
            (hi.depth_le hj).trans hdepth, by simp⟩
        · obtain ⟨before, later, rfl, hbefore, hlater⟩ := hi
          refine ⟨i, before, later ++ [last], by simp, hbefore, fun j hj => ?_⟩
          rcases List.mem_append.mp hj with hj | hj
          · exact hlater j hj
          · rw [List.mem_singleton.mp hj]
            exact Nat.lt_of_not_le hdepth

theorem filter_depth_eq_nil {depth : Nat} (h : ∀ j ∈ imports, j.depth ≠ depth) :
    imports.filter (·.depth = depth) = [] := by
  simpa using h

/-- When imports are taken by their depth, the one that prevails
is taken last. -/
theorem taken_last (h : Prevails imports i) {depth : Nat}
    (hdepth : i.depth < depth) :
    ((List.range depth).flatMap fun d =>
      imports.filter (·.depth = d)).getLast? = some i := by
  obtain ⟨deeper, rfl⟩ : ∃ deeper, depth = i.depth + 1 + deeper :=
    Nat.exists_eq_add_of_le hdepth
  have hdeeper : (((List.range deeper).map (i.depth + 1 + ·)).flatMap fun d =>
      imports.filter (·.depth = d)) = [] := by
    rw [List.flatMap_eq_nil_iff]
    intro d hd
    obtain ⟨more, -, rfl⟩ := List.mem_map.mp hd
    refine filter_depth_eq_nil fun j hj => ?_
    have hle := h.depth_le hj
    omega
  obtain ⟨before, later, rfl, -, hlater⟩ := h
  have hnone : later.filter (·.depth = i.depth) = [] :=
    filter_depth_eq_nil fun j hj => Nat.ne_of_lt (hlater j hj)
  rw [List.range_add, List.flatMap_append, hdeeper, List.append_nil,
    List.range_succ, List.flatMap_append, List.flatMap_singleton,
    List.filter_append, List.filter_cons_of_pos (by simp), hnone]
  simp

/-- What prevails over the last import at module level is deeper, or inside a
function or a class and as deep. -/
theorem over_last (h : Prevails imports i) {last : Standing}
    (hlast : (imports.filter (!·.inner)).getLast? = some last) :
    i = last ∨ last.depth < i.depth ∨
    (i.inner = true ∧ i.depth = last.depth) := by
  have hmem : last ∈ imports :=
    (List.mem_filter.mp (List.mem_of_getLast? hlast)).1
  have hle := h.depth_le hmem
  cases hinner : i.inner with
  | true =>
      rcases Nat.lt_or_eq_of_le hle with hlt | heq
      · exact .inr (.inl hlt)
      · exact .inr (.inr ⟨rfl, heq.symm⟩)
  | false =>
      obtain ⟨before, later, rfl, -, hlater⟩ := h
      rw [List.filter_append, List.filter_cons_of_pos (by simp [hinner]),
        List.getLast?_append, List.getLast?_cons] at hlast
      cases hrest : (later.filter (!·.inner)).getLast? with
      | none =>
          rw [hrest] at hlast
          exact .inl (Option.some.inj hlast)
      | some j =>
          rw [hrest] at hlast
          obtain rfl : j = last := Option.some.inj hlast
          have hj : j ∈ later :=
            (List.mem_filter.mp (List.mem_of_getLast? hrest)).1
          exact .inr (.inl (hlater j hj))

end Prevails

section Collect

variable {tree : Module} {module : String} {isPackage : Bool}
    {name : String} {i : Standing}

/-- What a level of the tree gives a name, import by import. -/
theorem bound_level (depth : Nat) :
    (Node.level depth [.module tree]).flatMap (bound module isPackage name) =
      ((standing tree module isPackage name).filter (·.depth = depth)).map
      (·.binding) := by
  have hlevel := @Node.outline_level 0 false [.module tree] depth
  rw [← hlevel, Nat.zero_add, List.flatMap_map, standing, List.filter_flatMap,
    List.map_flatMap]
  induction Node.outline 0 false [.module tree] with
  | nil => rfl
  | cons p ps ih =>
      rw [List.filter_cons, List.flatMap_cons, ← ih]
      by_cases hp : p.depth = depth
      · rw [if_pos (decide_eq_true hp), List.flatMap_cons]
        simp [hp, List.filter_map, Function.comp_def]
      · rw [if_neg (by simp [hp])]
        simp [hp, List.filter_map, Function.comp_def]

/-- What is collected for a name is what the import that prevails gives it. -/
theorem collect_of_prevails
    (h : Prevails (standing tree module isPackage name) i) :
    (collect tree module isPackage).get? name = some i.binding := by
  obtain ⟨depth, htotal, hdepth⟩ : ∃ depth, Node.total [.module tree] ≤ depth ∧
      i.depth < depth :=
    ⟨_, Nat.le_max_left _ (i.depth + 1), Nat.le_max_right _ _⟩
  calc (collect tree module isPackage).get? name
      = ((Node.breadthFirst [.module tree]).flatMap
        (bound module isPackage name)).getLast? := by
        rw [collect, Table.get?_ofList, ← List.getLast?_map,
          List.filter_flatMap, List.map_flatMap]
        rfl
    _ =
    (((List.range depth).flatMap fun d =>
      (standing tree module isPackage name).filter
          (·.depth = d)).getLast?).map (·.binding) := by
        rw [Node.breadthFirst_eq_levels htotal, List.flatMap_assoc, ←
          List.getLast?_map, List.map_flatMap]
        simp only [bound_level]
    _ = some i.binding := by
        rw [h.taken_last hdepth]
        rfl

end Collect

/-- A name that a module imports at module level stands for what the last import
there gives it exactly if the import that prevails gives it the same: one that
is deeper, or inside a function or a class and as deep, if it is not the last
one at module level itself. -/
theorem last_at_module_level_iff (tree : Module) (module : String)
    (isPackage : Bool) {name : String} {last : Standing}
    (hlast : (atModuleLevel tree module isPackage name).getLast? = some last) :
    ∃ i, Prevails (standing tree module isPackage name) i ∧
      (i = last ∨ last.depth < i.depth ∨
        (i.inner = true ∧ i.depth = last.depth)) ∧
      (collect tree module isPackage).get? name = some i.binding ∧
      ((collect tree module isPackage).get? name = some last.binding ↔
        i.binding = last.binding) := by
  have hsome : standing tree module isPackage name ≠ [] := by
    intro hnone
    rw [atModuleLevel, hnone] at hlast
    cases hlast
  obtain ⟨i, hi⟩ := Prevails.exists_of_ne_nil hsome
  refine ⟨i, hi, hi.over_last hlast, collect_of_prevails hi, ?_⟩
  rw [collect_of_prevails hi, Option.some.injEq]

end BridgeBindings.Imports

namespace BridgeBindings.Sample

open Syntax Imports

def importsNoteFrom (module : String) : Stmt :=
  .importFrom (some module) 0 [⟨"Note", none⟩]

/-- A function has an import of its own; those of the module are in a block
below it, the second one for the case that the first one fails. -/
def guarded : Module :=
  ⟨[mainFunction [importsNoteFrom "drafts"],
    .tryBlock [importsNoteFrom "notes"]
      [⟨some (name "ImportError"), none, [importsNoteFrom "plain"]⟩] [] []]⟩

theorem guarded_standing : standing guarded "main" false "Note" =
    [⟨2, true, ⟨"drafts", some "Note"⟩⟩, ⟨2, false, ⟨"notes", some "Note"⟩⟩,
      ⟨3, false, ⟨"plain", some "Note"⟩⟩] := by
  decide +kernel

/-- The import of the module that comes last is also the
deepest, so it holds. -/
theorem guarded_kept : (atModuleLevel guarded "main" false "Note").getLast? =
      some ⟨3, false, ⟨"plain", some "Note"⟩⟩ ∧
    (collect guarded "main" false).get? "Note" =
    some ⟨"plain", some "Note"⟩ := by
  have hlast : (atModuleLevel guarded "main" false "Note").getLast? =
      some ⟨3, false, ⟨"plain", some "Note"⟩⟩ := by
    rw [atModuleLevel, guarded_standing]
    rfl
  obtain ⟨i, hprevails, hover, -, hiff⟩ :=
    last_at_module_level_iff guarded "main" false hlast
  refine ⟨hlast, hiff.mpr ?_⟩
  have hi := hprevails.mem
  simp only [guarded_standing, List.mem_cons, List.not_mem_nil, or_false] at hi
  rcases hi with rfl | rfl | rfl
  · exact absurd hover (by decide)
  · exact absurd hover (by decide)
  · rfl

/-- A function has an import of its own, and the module's comes after it. -/
def importBelow : Module :=
  ⟨[mainFunction [importsNoteFrom "drafts"], importsNoteFrom "notes"]⟩

/-- The function's import holds although the module's is the only one at module
level, and the last. -/
theorem import_overridden :
      (atModuleLevel importBelow "main" false "Note").getLast? =
      some ⟨1, false, ⟨"notes", some "Note"⟩⟩ ∧
    (standing importBelow "main" false "Note").getLast? =
      some ⟨1, false, ⟨"notes", some "Note"⟩⟩ ∧
    (collect importBelow "main" false).get? "Note" =
    some ⟨"drafts", some "Note"⟩ := by
  decide +kernel

end BridgeBindings.Sample
