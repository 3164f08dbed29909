import BridgeBindings.Proofs.BridgeNames
import BridgeBindings.Proofs.Lookups

/-!
# Moving the functions of a module

The functions of a module may stand in another order, and elsewhere among its
other statements. What the module declares is the same by name. So is what it
imports, unless what a function imports disagrees with another import of the
name: imports count level by level, and of two on one level the one that
stands later holds.
-/

namespace BridgeBindings

open Syntax

/-! ## Moved functions -/

namespace Syntax

/-- Whether a statement defines a function. -/
def Stmt.isFunction (s : Stmt) : Bool := (Scope.functionOf? s).isSome

/-- Whether a statement defines a function of a name. -/
def Stmt.isFunctionNamed (name : String) (s : Stmt) : Bool :=
  (Scope.functionOf? s).any (·.1 = name)

/-- One body is the other with functions moved. Statements of any other kind
keep their order, and so do functions of one name. -/
structure Moved (body body' : List Stmt) : Prop where
  perm : body.Perm body'
  others : body.filter (!·.isFunction) = body'.filter (!·.isFunction)
  namesakes : ∀ name, body.filter (·.isFunctionNamed name) =
      body'.filter (·.isFunctionNamed name)

namespace Moved

variable {body body' : List Stmt}

/-- Functions with distinct names may come in any order. -/
theorem of_distinct (hperm : body.Perm body')
    (hothers : body.filter (!·.isFunction) = body'.filter (!·.isFunction))
    (hnames : ((body.filterMap Scope.functionOf?).map (·.1)).Nodup) :
    Moved body body' := by
  refine ⟨hperm, hothers, fun name => ?_⟩
  have hcount : ∀ body : List Stmt,
      (body.filter (·.isFunctionNamed name)).length =
      ((body.filterMap Scope.functionOf?).map (·.1)).count name := by
    intro body
    induction body with
    | nil => rfl
    | cons s body ih =>
        have hnamed : s.isFunctionNamed name =
            (Scope.functionOf? s).any (·.1 = name) := rfl
        cases hs : Scope.functionOf? s with
        | none => simp [hs, hnamed, ih]
        | some f => by_cases hf : f.1 = name <;> simp [hs, hnamed, ih, hf]
  have hone : (body.filter (·.isFunctionNamed name)).length ≤ 1 := by
    rw [hcount]
    exact List.nodup_iff_count_le_one.mp hnames name
  have hfilter := hperm.filter (·.isFunctionNamed name)
  generalize body.filter (·.isFunctionNamed name) = named at hone hfilter
  match named, hone with
  | [], _ => exact (List.nil_perm.mp hfilter).symm
  | [s], _ => exact List.singleton_perm.mp hfilter
  | _ :: _ :: _, hone => simp at hone

variable (h : Moved body body')

include h

theorem filter_eq {p : Stmt → Bool}
    (hp : ∀ s ∈ body, s.isFunction → p s = false) :
    body.filter p = body'.filter p := by
  have hothers : ∀ body : List Stmt, (∀ s ∈ body, s.isFunction → p s = false) →
      body.filter p = (body.filter (!·.isFunction)).filter p := by
    intro body hp
    rw [List.filter_filter]
    refine List.filter_congr fun s hs => ?_
    cases hfunction : s.isFunction
    · simp
    · simp [hp s hs hfunction]
  rw [hothers body hp, h.others, ← hothers body' fun s hs =>
    hp s (h.perm.mem_iff.mpr hs)]

/-- What is read off the statements is the same if nothing is read
off functions. -/
theorem flatMap_eq {α : Type} {g : Stmt → List α}
    (hg : ∀ s ∈ body, s.isFunction → g s = []) :
    body.flatMap g = body'.flatMap g := by
  have hkept : ∀ body : List Stmt, body.flatMap g =
      (body.filter fun s => !(g s).isEmpty).flatMap g := by
    intro body
    induction body with
    | nil => rfl
    | cons s body ih => cases hs : g s <;> simp [hs, ih]
  have hfilter :=
    h.filter_eq (p := fun s => !(g s).isEmpty) fun s hs hfunction => by
    rw [hg s hs hfunction]
    rfl
  rw [hkept body, hkept body', hfilter]

theorem filterMap_eq {α : Type} {g : Stmt → Option α}
    (hg : ∀ s ∈ body, s.isFunction → g s = none) :
    body.filterMap g = body'.filterMap g := by
  have hflat :=
    h.flatMap_eq (g := fun s => (g s).toList) fun s hs hfunction => by
    rw [hg s hs hfunction, Option.toList_none]
  simpa [List.filterMap_eq_flatMap_toList] using hflat

end Moved

end Syntax

/-! ## The scope of a module with its functions moved -/

namespace Source

/-- A file with its functions moved. -/
structure Version (s s' : Source) : Prop where
  module : s'.module = s.module
  isPackageInit : s'.isPackageInit = s.isPackageInit
  moved : Moved s.tree.body s'.tree.body

/-- What a statement of a file imports. -/
def bindingsIn (s : Source) (stmt : Stmt) : List (String × Binding) :=
  (Node.breadthFirst [.stmt stmt]).flatMap
    (Imports.ofNode s.module s.isPackageInit)

/-- An import inside of a function gives its name the meaning that every other
one of the name gives it. -/
def ImportsAgree (s : Source) : Prop :=
  ∀ f, .function f ∈ s.tree.body →
    ∀ name b, (name, b) ∈ s.bindingsIn (.function f) →
    ∀ b', (name, b') ∈ s.bindings → b' = b

/-- What a statement of a file imports at a level below it. -/
def bindingsAt (s : Source) (depth : Nat) (stmt : Stmt) :
    List (String × Binding) :=
  (Node.level depth [.stmt stmt]).flatMap
    (Imports.ofNode s.module s.isPackageInit)

theorem bindings_body (s : Source) : s.bindings =
    (Node.breadthFirst (Node.stmts s.tree.body)).flatMap
      (Imports.ofNode s.module s.isPackageInit) := by
  rw [bindings, Node.breadthFirst]
  simp only [List.flatMap_cons, List.flatMap_nil, List.append_nil,
    List.cons_append, List.nil_append, Node.children, Imports.ofNode]

theorem bindings_eq_levels (s : Source) {depth : Nat}
    (h : Node.total (Node.stmts s.tree.body) ≤ depth) :
    s.bindings = (List.range depth).flatMap fun d =>
      s.tree.body.flatMap (s.bindingsAt d) := by
  rw [bindings_body, Node.breadthFirst_eq_levels h, List.flatMap_assoc]
  refine List.flatMap_congr fun d _ => ?_
  rw [Node.level_eq_flatMap, List.flatMap_assoc, Node.stmts, List.flatMap_map]
  rfl

theorem mem_bindings_iff {s : Source} {e : String × Binding} :
    e ∈ s.bindings ↔ ∃ stmt ∈ s.tree.body, e ∈ s.bindingsIn stmt := by
  rw [bindings_body, List.mem_flatMap]
  constructor
  · rintro ⟨m, hm, he⟩
    obtain ⟨n, hn, hm⟩ := Node.mem_breadthFirst_parts.mp hm
    obtain ⟨stmt, hstmt, rfl⟩ := List.mem_map.mp hn
    exact ⟨stmt, hstmt, List.mem_flatMap.mpr ⟨m, hm, he⟩⟩
  · rintro ⟨stmt, hstmt, he⟩
    obtain ⟨m, hm, he⟩ := List.mem_flatMap.mp he
    exact ⟨m, Node.mem_breadthFirst_parts.mpr
      ⟨_, List.mem_map_of_mem hstmt, hm⟩, he⟩

theorem bindingsIn_of_bindingsAt {s : Source} {depth : Nat} {stmt : Stmt}
    {e : String × Binding} (h : e ∈ s.bindingsAt depth stmt) :
    e ∈ s.bindingsIn stmt := by
  obtain ⟨m, hm, he⟩ := List.mem_flatMap.mp h
  exact List.mem_flatMap.mpr ⟨m, Node.mem_breadthFirst_iff.mpr ⟨depth, hm⟩, he⟩

namespace Version

variable {s s' : Source} (h : s.Version s')

include h

theorem bindingsIn : s'.bindingsIn = s.bindingsIn := by
  funext stmt
  unfold Source.bindingsIn
  rw [h.module, h.isPackageInit]

theorem bindingsAt : s'.bindingsAt = s.bindingsAt := by
  funext depth stmt
  unfold Source.bindingsAt
  rw [h.module, h.isPackageInit]

theorem mem_bindings (e : String × Binding) :
    e ∈ s'.bindings ↔ e ∈ s.bindings := by
  rw [mem_bindings_iff, mem_bindings_iff, h.bindingsIn]
  simp only [h.moved.perm.mem_iff]

/-- If no function imports a name, the imports of the name come in
the same order. -/
theorem imports_of_outside {name : String}
    (houtside : ∀ stmt ∈ s.tree.body, stmt.isFunction →
    ∀ b, (name, b) ∉ s.bindingsIn stmt) :
    s.bindings.filter (·.1 = name) = s'.bindings.filter (·.1 = name) := by
  have hlevel :
      ∀ depth, (s.tree.body.flatMap (s.bindingsAt depth)).filter (·.1 = name) =
      (s'.tree.body.flatMap (s.bindingsAt depth)).filter (·.1 = name) := by
    intro depth
    rw [List.filter_flatMap, List.filter_flatMap]
    refine h.moved.flatMap_eq fun stmt hstmt hfunction =>
      List.filter_eq_nil_iff.mpr ?_
    rintro ⟨name', b⟩ he hname
    obtain rfl : name' = name := of_decide_eq_true hname
    exact houtside stmt hstmt hfunction b (bindingsIn_of_bindingsAt he)
  obtain ⟨depth, hdepth, hdepth'⟩ :
      ∃ depth, Node.total (Node.stmts s.tree.body) ≤ depth ∧
      Node.total (Node.stmts s'.tree.body) ≤ depth :=
        ⟨_, le_max_left _ _, le_max_right _ _⟩
  rw [bindings_eq_levels s hdepth, bindings_eq_levels s' hdepth',
    List.filter_flatMap, List.filter_flatMap, h.bindingsAt]
  exact List.flatMap_congr fun d _ => hlevel d

theorem imports (himports : s.ImportsAgree) (name : String) :
    (Scope.ofSource s).imports.get? name =
    (Scope.ofSource s').imports.get? name := by
  show (Table.ofList s.bindings).get? name =
      (Table.ofList s'.bindings).get? name
  by_cases hinside : ∃ f b, .function f ∈ s.tree.body ∧
    (name, b) ∈ s.bindingsIn (.function f)
  · obtain ⟨f, b, hf, hb⟩ := hinside
    have hmem : (name, b) ∈ s.bindings := mem_bindings_iff.mpr ⟨_, hf, hb⟩
    have honly := himports f hf name b hb
    rw [Table.get?_ofList_only hmem honly,
      Table.get?_ofList_only ((h.mem_bindings _).mpr hmem)
      fun b' hb' => honly b' ((h.mem_bindings _).mp hb')]
  · rw [Table.get?_ofList, Table.get?_ofList, h.imports_of_outside]
    intro stmt hstmt hfunction b hb
    cases stmt with
    | function f => exact hinside ⟨f, b, hstmt, hb⟩
    | _ => cases hfunction

/-- The module has the same under every name. -/
theorem alike (himports : s.ImportsAgree) :
    (Scope.ofSource s).Alike (.ofSource s') := by
  have hclasses : s.tree.body.filterMap Scope.classOf? =
      s'.tree.body.filterMap Scope.classOf? := by
    refine h.moved.filterMap_eq fun stmt _ hfunction => ?_
    cases stmt <;> first | rfl | cases hfunction
  have haliases : s.tree.body.filterMap Scope.aliasOf? =
      s'.tree.body.filterMap Scope.aliasOf? := by
    refine h.moved.filterMap_eq fun stmt _ hfunction => ?_
    cases stmt <;> first | rfl | cases hfunction
  -- classes and aliases keep their order, and functions keep it among those of
  -- one name, which is all that a table can tell
  have hfunctions :
      ∀ name, (s.tree.body.filterMap Scope.functionOf?).filter (·.1 = name) =
      (s'.tree.body.filterMap Scope.functionOf?).filter (·.1 = name) := by
    intro name
    have hnamed : ∀ body : List Stmt,
        (body.filterMap Scope.functionOf?).filter (·.1 = name) =
        (body.filter (·.isFunctionNamed name)).filterMap Scope.functionOf? := by
      intro body
      rw [List.filter_filterMap, List.filterMap_filter]
      refine List.filterMap_congr fun stmt _ => ?_
      unfold Stmt.isFunctionNamed
      cases Scope.functionOf? stmt with
      | none => rfl
      | some f => by_cases hf : f.1 = name <;> simp [hf]
    rw [hnamed, hnamed, h.moved.namesakes]
  refine ⟨h.module.symm, h.imports himports,
    fun name => ?_, fun name => ?_, fun name => ?_⟩
  · show (Table.ofList _).get? name = (Table.ofList _).get? name
    rw [hclasses]
  · show (Table.ofList _).get? name = (Table.ofList _).get? name
    rw [Table.get?_ofList, Table.get?_ofList, hfunctions]
  · show (Table.ofList _).get? name = (Table.ofList _).get? name
    rw [haliases]

end Version

end Source

/-! ## A program with another version of a file -/

/-- The second program has one file for another, and all other files
of the first. -/
def Program.Substitutes (p : Program) (s s' : Source) (p' : Program) : Prop :=
  List.Forall₂ (fun f f' => f' = f ∨ f = s ∧ f' = s') p.files p'.files

theorem Program.Substitutes.alike {p p' : Program} {s s' : Source}
    (h : p.Substitutes s s' p') (hversion : s.Version s')
    (himports : s.ImportsAgree) :
    (Symbols.ofProgram p).Alike (Symbols.ofProgram p') := by
  have hentries :
      List.Forall₂ (fun e e' : String × Scope => e'.1 = e.1 ∧ e.2.Alike e'.2)
      (p.files.map fun f => (f.module, Scope.ofSource f))
      (p'.files.map fun f => (f.module, Scope.ofSource f)) := by
    rw [List.forall₂_map_left_iff, List.forall₂_map_right_iff]
    refine List.Forall₂.imp (fun f f' hf => ?_) h
    rcases hf with rfl | ⟨rfl, rfl⟩
    · exact ⟨rfl, .refl _⟩
    · exact ⟨hversion.module, hversion.alike himports⟩
  exact Table.rel_ofList hentries

end BridgeBindings
