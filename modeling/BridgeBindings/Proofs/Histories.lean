import BridgeBindings.Proofs.Growth
import BridgeBindings.Proofs.Reachability

/-!
# What a builder builds

A builder collects edits of one package: structs are registered and get their
fields, and names and bound methods are added, in any order and any number of
times. What it builds in the end is read off the list of its edits alone. A
struct is what its name was registered for first, with the fields that it got
last; the other names stand in order, each once; and the last method of a
qualified name is the one that stays.

Each collection of a draft has one equation for what an edit does to it. The
invariant carries these along the list of edits, which grows at its end.
-/

namespace BridgeBindings

/-! ## Names in order, each once -/

theorem increasing_eraseReps {names : List String}
    (h : names.Pairwise (· ≤ ·)) : names.eraseReps.Pairwise (· < ·) := by
  -- what is collected stands in reverse, and all of it before the name at hand
  have hloop : ∀ (names : List String) (n : String) (seen : List String),
      (n :: names).Pairwise (· ≤ ·) → (n :: seen).Pairwise (· > ·) →
      (List.eraseRepsBy.loop (· == ·) n names seen).Pairwise (· < ·) := by
    intro names
    induction names with
    | nil =>
        intro n seen _ hseen
        rw [List.eraseRepsBy.loop]
        exact List.pairwise_reverse.mpr hseen
    | cons m names ih =>
        intro n seen hnames hseen
        obtain ⟨hn, hm⟩ := List.pairwise_cons.mp hnames
        rw [List.eraseRepsBy.loop]
        split
        · next hnm => exact ih n seen ((eq_of_beq hnm) ▸ hm) hseen
        · next hnm =>
            have hlt : n < m :=
              lt_of_le_of_ne (hn m List.mem_cons_self) (by simpa using hnm)
            refine ih m (n :: seen) hm
              (List.pairwise_cons.mpr ⟨fun k hk => ?_, hseen⟩)
            rcases List.mem_cons.mp hk with rfl | hk
            · exact hlt
            · exact lt_trans ((List.pairwise_cons.mp hseen).1 k hk) hlt
  cases names with
  | nil => exact List.Pairwise.nil
  | cons n names => exact hloop names n [] h (List.pairwise_singleton _ _)

theorem increasing_sortedSet (names : List String) :
    (sortedSet names).Pairwise (· < ·) :=
  increasing_eraseReps (sortNames_sorted names)

/-- The entries of a table in the order of their names. -/
def Table.sorted {α : Type} (t : Table α) : List (String × α) :=
  t.entries.mergeSort fun a b => decide (a.1 ≤ b.1)

namespace Table

variable {α : Type} {t : Table α}

theorem increasing_sorted (h : t.keys.Nodup) :
    (t.sorted.map (·.1)).Pairwise (· < ·) := by
  have hle : (t.sorted.map (·.1)).Pairwise (· ≤ ·) :=
    List.pairwise_map.mpr
      ((List.pairwise_mergeSort (names_trans Prod.fst) (names_total Prod.fst)
      t.entries).imp of_decide_eq_true)
  have hnodup : (t.sorted.map (·.1)).Nodup :=
    ((List.mergeSort_perm _ _).map _).nodup_iff.mpr h
  exact hle.imp₂ (fun _ _ => lt_of_le_of_ne) hnodup

theorem get?_sorted (h : t.keys.Nodup) (n : String) :
    (Table.mk t.sorted).get? n = t.get? n := by
  have hmem : ∀ e, e ∈ t.sorted ↔ e ∈ t.entries := fun e => List.mem_mergeSort
  have hnodup : (Table.mk t.sorted).keys.Nodup :=
    (increasing_sorted h).imp ne_of_lt
  ext a
  exact ⟨fun ha => get?_of_mem h ((hmem _).mp (get?_mem ha)),
    fun ha => get?_of_mem hnodup ((hmem _).mpr (get?_mem ha))⟩

end Table

/-! ## Edits -/

/-- A change to a package that is not built yet. -/
inductive Edit where
  | register (name module : String) (comments : List CodeText)
  | complete (name : String) (fields : List StructField)
  | addReference (package : String)
  | addUnresolved (qualifiedName : String)
  | markUsedAsData (name : String)
  | addMethod (m : BoundMethod)
  deriving DecidableEq, Repr

namespace Edit

/-- The module and the comments that an edit registers a name for. -/
def registration? (name : String) : Edit → Option (String × List CodeText)
  | .register n module comments =>
      if n = name then some (module, comments) else none
  | _ => none

/-- The fields that an edit gives a struct. -/
def completion? (name : String) : Edit → Option (List StructField)
  | .complete n fields => if n = name then some fields else none
  | _ => none

/-- The method that an edit adds under a qualified name. -/
def method? (qualifiedName : String) : Edit → Option BoundMethod
  | .addMethod m => if m.qualifiedName = qualifiedName then some m else none
  | _ => none

section Ledger

variable {α : Type} (of : Edit → Option α)

/-- What the first edit that has any has. -/
def first? (edits : List Edit) : Option α := edits.findSome? of

/-- What the last edit that has any has. -/
def last? (edits : List Edit) : Option α := edits.reverse.findSome? of

theorem first?_append (edits more : List Edit) :
    first? of (edits ++ more) = (first? of edits).or (first? of more) :=
  List.findSome?_append

theorem last?_append (edits more : List Edit) :
    last? of (edits ++ more) = (last? of more).or (last? of edits) := by
  rw [last?, List.reverse_append, List.findSome?_append]
  rfl

theorem first?_snoc (edits : List Edit) (e : Edit) :
    first? of (edits ++ [e]) = (first? of edits).or (of e) := by
  rw [first?_append]
  simp [first?]

theorem last?_snoc (edits : List Edit) (e : Edit) :
    last? of (edits ++ [e]) = (of e).or (last? of edits) := by
  rw [last?_append]
  simp [last?]

end Ledger

/-- Whether a name is registered by then. -/
def IsRegistered (edits : List Edit) (name : String) : Prop :=
  (first? (registration? name) edits).isSome

/-- Whether a struct has got its fields by then. -/
def IsCompleted (edits : List Edit) (name : String) : Prop :=
  (last? (completion? name) edits).isSome

/-- An edit behind others gives fields to no struct but a registered one. -/
def InOrder (edits : List Edit) : Edit → Prop
  | .complete name _ => IsRegistered edits name
  | _ => True

/-- Structs get fields only when they are registered already. -/
def Ordered (edits : List Edit) : Prop :=
  ∀ before e after, edits = before ++ e :: after → InOrder before e

instance (edits : List Edit) (name : String) :
    Decidable (IsRegistered edits name) :=
  inferInstanceAs
    (Decidable ((first? (registration? name) edits).isSome = true))

instance (edits : List Edit) (name : String) :
    Decidable (IsCompleted edits name) :=
  inferInstanceAs (Decidable ((last? (completion? name) edits).isSome = true))

instance (edits : List Edit) : DecidablePred (InOrder edits)
  | .complete name _ => inferInstanceAs (Decidable (IsRegistered edits name))
  | .register .. | .addReference _ | .addUnresolved _ | .markUsedAsData
      _ | .addMethod _ =>
    .isTrue trivial

theorem ordered_iff {edits : List Edit} :
    Ordered edits ↔ ∀ i : Fin edits.length,
      InOrder (edits.take i) edits[i] := by
  constructor
  · intro h i
    refine h _ _ (edits.drop (i + 1)) ?_
    rw [Fin.getElem_fin, List.getElem_cons_drop, List.take_append_drop]
  · rintro h before e after rfl
    simpa using h ⟨before.length, by simp⟩

instance : DecidablePred Ordered := fun _ => decidable_of_iff' _ ordered_iff

end Edit

/-! ## Builders under edits -/

namespace Draft

/-- The draft after an edit; fields for an unknown struct change nothing. -/
def edit (d : Draft) : Edit → Draft
  | .register name module comments => d.register name module comments
  | .complete name fields => d.complete name fields
  | .addReference package => d.addReference package
  | .addUnresolved qualifiedName => d.addUnresolved qualifiedName
  | .markUsedAsData name => d.markUsedAsData name
  | .addMethod m => d.addMethod m

end Draft

namespace Builder

/-- What can be asked of a builder. -/
inductive Call where
  | edit (e : Edit)
  | build
  deriving DecidableEq, Repr

/-- A builder of which nothing has been asked. -/
def fresh (name : String) (isRoot : Bool) : Builder :=
  { draft := { name, isRoot } }

end Builder

namespace Building

/-- Makes one edit; what it is answered with is left aside. -/
def edit : Edit → Building Unit
  | .register name module comments => do
    let _ ← register name module comments
  | .complete name fields => do
    let _ ← complete name fields
  | .addReference package => addReference package
  | .addUnresolved qualifiedName => addUnresolved qualifiedName
  | .markUsedAsData name => markUsedAsData name
  | .addMethod m => addMethod m

/-- Makes edits up to the first one that is refused. -/
def edits (es : List Edit) : Building Unit := es.forM edit

/-- Asks one thing of a builder. -/
def call : Builder.Call → Building Unit
  | .edit e => edit e
  | .build => do
    let _ ← build

/-! ### What an operation does -/

theorem get_bind_run {α : Type} (f : Builder → Building α) (b : Builder) :
    (get >>= f) b = f b b :=
  rfl

theorem checkOpen_bind_run {α : Type} (f : Unit → Building α) (d : Draft) :
    (checkOpen >>= f) ⟨d, none⟩ = f () ⟨d, none⟩ :=
  rfl

/-- A name that is taken is answered from what it was registered for. -/
theorem register_taken {name : String} {st : Struct} {b : Builder}
    (h : b.draft.get? name = some st) (module : String)
    (comments : List CodeText) :
    register name module comments b = (.ok st, b) := by
  unfold register
  rw [get_bind_run, h]
  rfl

theorem register_free {name : String} {b : Builder}
    (h : b.draft.get? name = none) (module : String)
    (comments : List CodeText) : register name module comments b = (do
      checkOpen
      change (·.register name module comments)
      return (← get).draft.placeholder name module comments :
      Building Struct) b := by
  unfold register
  rw [get_bind_run, h]

theorem complete_open {name : String} {d : Draft} {st : Struct}
    (h : d.get? name = some st) (fields : List StructField) :
    complete name fields ⟨d, none⟩ =
      (.ok { st with fields := fields }, ⟨d.complete name fields, none⟩) := by
  unfold complete
  rw [checkOpen_bind_run, get_bind_run, h]
  rfl

theorem complete_unknown {name : String} {d : Draft} (h : d.get? name = none)
    (fields : List StructField) :
    complete name fields ⟨d, none⟩ =
    (.error (.unknownStruct name), ⟨d, none⟩) := by
  unfold complete
  rw [checkOpen_bind_run, get_bind_run, h]
  rfl

theorem addReference_run (package : String) (b : Builder) :
    addReference package b =
      if package = b.draft.name then (.ok (), b)
      else (do checkOpen; change (·.addReference package) : Building Unit)
        b := by
  unfold addReference
  rw [get_bind_run]
  split <;> rfl

/-- An open builder builds if no struct waits. -/
theorem build_open (d : Draft) :
    build ⟨d, none⟩ =
      if d.pending = [] then (.ok d.freeze, ⟨d, some d.freeze⟩)
      else (.error (.placeholders d.name d.pending), ⟨d, none⟩) := by
  unfold build
  rw [get_bind_run]
  show (get >>= _ : Building Package) ⟨d, none⟩ = _
  rw [get_bind_run]
  cases hpending : d.pending with
  | nil => rfl
  | cons n names =>
      rw [if_neg (List.cons_ne_nil n names)]
      rfl

/-- An open builder takes every edit that does not give fields to an unknown
struct. -/
theorem edit_open {d : Draft} {e : Edit}
    (h : ∀ name fields, e = .complete name fields → (d.get? name).isSome) :
    edit e ⟨d, none⟩ = (.ok (), ⟨d.edit e, none⟩) := by
  cases e with
  | register name module comments =>
      show (register name module comments >>= fun _ => pure ()) ⟨d, none⟩ = _
      rw [run_bind]
      cases hget : d.get? name with
      | none =>
          rw [register_free (b := ⟨d, none⟩) hget]
          rfl
      | some st =>
          have hheld : d.register name module comments = d := by
            unfold Draft.register Table.insertNew
            rw [if_pos (Table.contains_iff.mpr ⟨st, hget⟩)]
          rw [register_taken (b := ⟨d, none⟩) hget]
          show _ = (Except.ok (),
              Builder.mk (d.register name module comments) none)
          rw [hheld]
          rfl
  | complete name fields =>
      obtain ⟨st, hst⟩ := Option.isSome_iff_exists.mp (h name fields rfl)
      show (complete name fields >>= fun _ => pure ()) ⟨d, none⟩ = _
      rw [run_bind, complete_open hst]
      rfl
  | addReference package =>
      show addReference package ⟨d, none⟩ =
          (.ok (), ⟨d.addReference package, none⟩)
      rw [addReference_run]
      dsimp only
      split
      · next hself => rw [Draft.addReference, if_pos hself]
      · rfl
  | addUnresolved qualifiedName => rfl
  | markUsedAsData name => rfl
  | addMethod m => rfl

end Building

/-! ## What an edit does to each collection -/

namespace Draft

open Edit

/-- Giving a struct its fields changes the structs, and which are resolved. -/
theorem complete_beside (d : Draft) (name : String)
    (fields : List StructField) : (d.complete name fields).isRoot = d.isRoot ∧
      (d.complete name fields).references = d.references ∧
      (d.complete name fields).unresolved = d.unresolved := by
  unfold complete
  split <;> exact ⟨rfl, rfl, rfl⟩

theorem addReference_beside (d : Draft) (package : String) :
    (d.addReference package).isRoot = d.isRoot ∧
      (d.addReference package).unresolved = d.unresolved := by
  unfold addReference
  split <;> exact ⟨rfl, rfl⟩

theorem name_edit (d : Draft) (e : Edit) : (d.edit e).name = d.name := by
  cases e with
  | complete name fields => exact (grows_complete d name fields).name
  | addReference package => exact (grows_addReference d package).name
  | _ => rfl

theorem isRoot_edit (d : Draft) (e : Edit) : (d.edit e).isRoot = d.isRoot := by
  cases e with
  | complete name fields => exact (d.complete_beside name fields).1
  | addReference package => exact (d.addReference_beside package).1
  | _ => rfl

/-- A name that is taken keeps its registration, and a struct its fields until
it gets others. -/
theorem get?_edit (d : Draft) (e : Edit) (n : String) :
    (d.edit e).get? n =
      ((d.get? n).or
        ((registration? n e).map fun r => d.placeholder n r.1 r.2)).map
        fun st => { st with fields := (completion? n e).getD st.fields } := by
  have hsame : ∀ x : Option Struct,
      (x.or none).map
      (fun st => { st with fields := (none : Option _).getD st.fields }) =
      x := by
    intro x
    cases x <;> rfl
  cases e with
  | register name module comments =>
      show (d.register name module comments).get? n = _
      rw [get?_register]
      by_cases hn : n = name
      · subst hn
        cases d.get? n <;> simp [registration?, completion?]
      · simp only [registration?, completion?, if_neg hn, if_neg (Ne.symm hn)]
        exact (hsame _).symm
  | complete name fields =>
      show (d.complete name fields).get? n = _
      rw [get?_complete]
      by_cases hn : n = name
      · subst hn
        cases d.get? n <;> simp [registration?, completion?]
      · simp only [registration?, completion?, if_neg hn, if_neg (Ne.symm hn)]
        exact (hsame _).symm
  | addReference package =>
      exact (get?_addReference d package n).trans (hsame _).symm
  | addUnresolved qualifiedName => exact (hsame _).symm
  | markUsedAsData name => exact (hsame _).symm
  | addMethod m => exact (hsame _).symm

theorem mem_resolved_edit (d : Draft) (e : Edit) (n : String) :
    n ∈ (d.edit e).resolved ↔
      n ∈ d.resolved ∨ (completion? n e).isSome ∧ (d.get? n).isSome := by
  cases e with
  | complete name fields =>
      show n ∈ (d.complete name fields).resolved ↔ _
      unfold complete completion?
      cases hget : d.get? name with
      | none =>
          by_cases hn : name = n
          · simp [← hn, hget]
          · simp [hn]
      | some st =>
          by_cases hn : name = n
          · simp [← hn, hget]
          · simp [hn, Ne.symm hn]
  | addReference package =>
      simp [edit, completion?, d.resolved_addReference package]
  | _ =>
      simp [edit, completion?, register, addUnresolved,
        markUsedAsData, addMethod]

theorem mem_references_edit (d : Draft) (e : Edit) (q : String) :
    q ∈ (d.edit e).references ↔ q ∈ d.references ∨ e = .addReference q ∧
    q ≠ d.name := by
  cases e with
  | complete name fields => simp [edit, d.complete_beside name fields]
  | addReference package =>
      show q ∈ (d.addReference package).references ↔ _
      unfold addReference
      split
      · next hself => simp +contextual [hself]
      · next hother =>
          simp only [List.mem_cons, Edit.addReference.injEq]
          grind
  | _ => simp [edit, register, addUnresolved, markUsedAsData, addMethod]

theorem mem_unresolved_edit (d : Draft) (e : Edit) (q : String) :
    q ∈ (d.edit e).unresolved ↔ q ∈ d.unresolved ∨ e = .addUnresolved q := by
  cases e with
  | complete name fields => simp [edit, d.complete_beside name fields]
  | addReference package => simp [edit, d.addReference_beside package]
  | addUnresolved qualifiedName => simp [edit, addUnresolved, or_comm, eq_comm]
  | _ => simp [edit, register, markUsedAsData, addMethod]

theorem mem_usedAsData_edit (d : Draft) (e : Edit) (n : String) :
    n ∈ (d.edit e).usedAsData ↔ n ∈ d.usedAsData ∨ e = .markUsedAsData n := by
  cases e with
  | complete name fields => simp [edit, (grows_complete d name fields).used]
  | addReference package => simp [edit, (grows_addReference d package).used]
  | markUsedAsData name => simp [edit, markUsedAsData, or_comm, eq_comm]
  | _ => simp [edit, register, addUnresolved, addMethod]

/-- A method takes the place of the one that its qualified name had. -/
theorem get?_methods_edit (d : Draft) (e : Edit) (q : String) :
    (d.edit e).methods.get? q = (method? q e).or (d.methods.get? q) := by
  cases e with
  | complete name fields =>
      show (d.complete name fields).methods.get? q = _
      rw [(grows_complete d name fields).methods]
      rfl
  | addReference package =>
      show (d.addReference package).methods.get? q = _
      rw [(grows_addReference d package).methods]
      rfl
  | addMethod m =>
      show (d.methods.insert m.qualifiedName m).get? q = _
      rw [Table.get?_insert]
      by_cases hq : q = m.qualifiedName
      · simp [method?, hq]
      · simp [method?, hq, Ne.symm hq]
  | _ => rfl

theorem once_edit {d : Draft} (h : d.structs.keys.Nodup) (e : Edit) :
    (d.edit e).structs.keys.Nodup := by
  cases e with
  | register name module comments =>
      exact (grows_register d name module comments).once h
  | complete name fields => exact (grows_complete d name fields).once h
  | addReference package => exact (grows_addReference d package).once h
  | _ => exact h

theorem methodsOnce_edit {d : Draft} (h : d.methods.keys.Nodup) (e : Edit) :
    (d.edit e).methods.keys.Nodup := by
  cases e with
  | complete name fields => exact (grows_complete d name fields).methods ▸ h
  | addReference package => exact (grows_addReference d package).methods ▸ h
  | addMethod m => exact Table.nodup_insert h m.qualifiedName m
  | _ => exact h

end Draft

/-! ## What a list of edits has made of a draft -/

section Recorded

open Edit

variable {package : String} {root : Bool} {edits : List Edit} {d : Draft}

/-- A draft holds what a list of edits says. -/
structure Recorded (package : String) (root : Bool) (edits : List Edit)
    (d : Draft) : Prop where
  name : d.name = package
  isRoot : d.isRoot = root
  structs : ∀ n, d.get? n = (first? (registration? n) edits).map fun r =>
    ⟨package, r.1, n, (last? (completion? n) edits).getD [], r.2⟩
  resolved : ∀ n, n ∈ d.resolved ↔ IsCompleted edits n
  /-- What has its fields is registered. -/
  behind : ∀ n, IsCompleted edits n → IsRegistered edits n
  references : ∀ q, q ∈ d.references ↔ .addReference q ∈ edits ∧ q ≠ package
  unresolved : ∀ q, q ∈ d.unresolved ↔ .addUnresolved q ∈ edits
  usedAsData : ∀ n, n ∈ d.usedAsData ↔ .markUsedAsData n ∈ edits
  methods : ∀ q, d.methods.get? q = last? (method? q) edits
  once : d.structs.keys.Nodup
  methodsOnce : d.methods.keys.Nodup

theorem Recorded.start :
    Recorded package root [] { name := package, isRoot := root } where
  name := rfl
  isRoot := rfl
  structs _ := rfl
  resolved _ := by simp [IsCompleted, last?]
  behind _ h := by simp [IsCompleted, last?] at h
  references _ := by simp
  unresolved _ := by simp
  usedAsData _ := by simp
  methods _ := rfl
  once := Table.nodup_empty
  methodsOnce := Table.nodup_empty

theorem isRegistered_append {more : List Edit} {n : String} :
    IsRegistered (edits ++ more) n ↔ IsRegistered edits n ∨
    IsRegistered more n := by
  simp [IsRegistered, first?_append]

theorem isCompleted_append {more : List Edit} {n : String} :
    IsCompleted (edits ++ more) n ↔
    IsCompleted more n ∨ IsCompleted edits n := by
  simp [IsCompleted, last?_append]

theorem isCompleted_singleton {e : Edit} {n : String} :
    IsCompleted [e] n ↔ (completion? n e).isSome := by
  simp [IsCompleted, last?]

/-- An edit gives a struct its fields only behind its registration. -/
theorem Edit.InOrder.registered {e : Edit} {n : String} (h : InOrder edits e)
    (hc : (completion? n e).isSome) : IsRegistered edits n := by
  cases e with
  | complete name fields =>
      have hn : name = n := by
        by_contra hne
        simp [completion?, hne] at hc
      exact hn ▸ h
  | _ => simp [completion?] at hc

theorem Recorded.isSome_get? (h : Recorded package root edits d) (n : String) :
    (d.get? n).isSome ↔ IsRegistered edits n := by
  rw [h.structs, Option.isSome_map]
  rfl

theorem Recorded.edit (h : Recorded package root edits d) {e : Edit}
    (he : InOrder edits e) :
    Recorded package root (edits ++ [e]) (d.edit e) where
  name := (d.name_edit e).trans h.name
  isRoot := (d.isRoot_edit e).trans h.isRoot
  structs n := by
    rw [d.get?_edit, h.structs, first?_snoc, last?_snoc]
    cases hfirst : first? (registration? n) edits with
    | some r =>
        simp only [Option.map_some, Option.some_or]
        cases completion? n e <;> rfl
    | none =>
        -- a name that is not registered yet has no fields either
        have hfree : ¬IsRegistered edits n := by simp [IsRegistered, hfirst]
        have hlast : last? (completion? n) edits = none := by
          by_contra hne
          exact hfree (h.behind n (Option.isSome_iff_ne_none.mpr hne))
        have hnow : completion? n e = none := by
          by_contra hne
          exact hfree (he.registered (Option.isSome_iff_ne_none.mpr hne))
        rw [hlast, hnow]
        simp only [Option.map_none, Option.none_or, Draft.placeholder, h.name]
        cases registration? n e <;> rfl
  resolved n := by
    rw [d.mem_resolved_edit, isCompleted_append, isCompleted_singleton,
      h.resolved, h.isSome_get?]
    constructor
    · exact fun hn => hn.symm.imp_left And.left
    · exact fun hn => hn.symm.imp_right fun hc => ⟨hc, he.registered hc⟩
  behind n hn := by
    rcases isCompleted_append.mp hn with hn | hn
    · exact isRegistered_append.mpr
        (.inl (he.registered (isCompleted_singleton.mp hn)))
    · exact isRegistered_append.mpr (.inl (h.behind n hn))
  references q := by
    rw [d.mem_references_edit, h.references, h.name, List.mem_append,
      List.mem_singleton, or_and_right, eq_comm]
  unresolved q := by
    rw [d.mem_unresolved_edit, h.unresolved, List.mem_append,
      List.mem_singleton, eq_comm]
  usedAsData n := by
    rw [d.mem_usedAsData_edit, h.usedAsData, List.mem_append,
      List.mem_singleton, eq_comm]
  methods q := by rw [d.get?_methods_edit, h.methods, last?_snoc]
  once := Draft.once_edit h.once e
  methodsOnce := Draft.methodsOnce_edit h.methodsOnce e

/-- From a draft that holds what some edits say, an open builder takes what
follows them, and holds what all of them say. -/
theorem Recorded.run (h : Recorded package root edits d) {more : List Edit}
    (hmore : ∀ before e after, more = before ++ e :: after →
      InOrder (edits ++ before) e) :
    ∃ d', Building.edits more ⟨d, none⟩ = (.ok (), ⟨d', none⟩) ∧
      Recorded package root (edits ++ more) d' := by
  induction more generalizing edits d with
  | nil => exact ⟨d, rfl, by rwa [List.append_nil]⟩
  | cons e more ih =>
      have he : InOrder edits e := by simpa using hmore [] e more rfl
      have hstep : Building.edit e ⟨d, none⟩ = (.ok (), ⟨d.edit e, none⟩) :=
        Building.edit_open fun n fields hc => by
          subst hc
          exact (h.isSome_get? n).mpr he
      obtain ⟨d', hrun, hd'⟩ := ih (h.edit he) fun before e' after hm => by
        simpa using hmore (e :: before) e' after (by rw [hm]; rfl)
      refine ⟨d', ?_, by simpa using hd'⟩
      show (Building.edit e >>= fun _ => Building.edits more) ⟨d, none⟩ = _
      rw [run_bind, hstep]
      exact hrun

/-! ## What is built -/

/-- A package is what a list of edits says. -/
structure Recounts (package : String) (root : Bool) (edits : List Edit)
    (p : Package) : Prop where
  name : p.name = package
  isRoot : p.isRoot = root
  structsOrder : p.structs.keys.Pairwise (· < ·)
  structs : ∀ n st, p.structs.get? n = some st ↔ ∃ module comments fields,
    first? (registration? n) edits = some (module, comments) ∧
      last? (completion? n) edits = some fields ∧
      st = ⟨package, module, n, fields, comments⟩
  referencesOrder : p.references.Pairwise (· < ·)
  references : ∀ q, q ∈ p.references ↔ .addReference q ∈ edits ∧ q ≠ package
  unresolvedOrder : p.unresolved.Pairwise (· < ·)
  unresolved : ∀ q, q ∈ p.unresolved ↔ .addUnresolved q ∈ edits
  usedAsDataOrder : p.usedAsData.Pairwise (· < ·)
  usedAsData : ∀ n, n ∈ p.usedAsData ↔ .markUsedAsData n ∈ edits
  methodsOrder : (p.methods.map (·.qualifiedName)).Pairwise (· < ·)
  methods : ∀ m, m ∈ p.methods ↔ last? (method? m.qualifiedName) edits = some m

/-- The structs of a list of edits that still wait for their fields, by name. -/
structure Waiting (edits : List Edit) (names : List String) : Prop where
  order : names.Pairwise (· < ·)
  members : ∀ n, n ∈ names ↔ IsRegistered edits n ∧ ¬IsCompleted edits n

theorem Recorded.waiting (h : Recorded package root edits d) :
    Waiting edits d.pending where
  order := increasing_sortedSet _
  members n := by
    unfold Draft.pending
    rw [mem_sortedSet, List.mem_filter, ← h.resolved n, ← h.isSome_get? n]
    have hkeys : n ∈ d.structs.keys ↔ (d.get? n).isSome := Table.mem_keys_iff
    rw [hkeys]
    simp [Draft.isResolved]

/-- What the last method of a qualified name is called. -/
theorem last?_method_name {q : String} {m : BoundMethod}
    (h : last? (method? q) edits = some m) : m.qualifiedName = q := by
  obtain ⟨e, -, he⟩ := List.exists_of_findSome?_eq_some h
  cases e with
  | addMethod m' =>
      by_cases hq : m'.qualifiedName = q
      · cases (by simpa [method?, hq] using he : m' = m)
        exact hq
      · simp [method?, hq] at he
  | _ => simp [method?] at he

/-- The methods of a draft stand under their own qualified names. -/
theorem Recorded.method_key (h : Recorded package root edits d) {q : String}
    {m : BoundMethod} (he : (q, m) ∈ d.methods.entries) : q = m.qualifiedName :=
  (last?_method_name
    ((h.methods q).symm.trans (Table.get?_of_mem h.methodsOnce he))).symm

theorem Recorded.freeze (h : Recorded package root edits d)
    (hnone : d.pending = []) : Recounts package root edits d.freeze where
  name := h.name
  isRoot := h.isRoot
  structsOrder := Table.increasing_sorted h.once
  structs n st := by
    show (Table.mk d.structs.sorted).get? n = some st ↔ _
    rw [Table.get?_sorted h.once n]
    show d.get? n = some st ↔ _
    rw [h.structs n]
    have hdone : IsRegistered edits n → IsCompleted edits n := by
      intro hn
      by_contra hc
      have hwaits := (h.waiting.members n).mpr ⟨hn, hc⟩
      rw [hnone] at hwaits
      exact List.not_mem_nil hwaits
    constructor
    · intro hst
      obtain ⟨⟨module, comments⟩, hfirst, rfl⟩ := Option.map_eq_some_iff.mp hst
      obtain ⟨fields, hlast⟩ :=
        Option.isSome_iff_exists.mp (hdone (by simp [IsRegistered, hfirst]))
      exact ⟨module, comments, fields, hfirst, hlast, by
        rw [hlast, Option.getD_some]⟩
    · rintro ⟨module, comments, fields, hfirst, hlast, rfl⟩
      rw [hfirst, hlast]
      rfl
  referencesOrder := increasing_sortedSet _
  references q := mem_sortedSet.trans (h.references q)
  unresolvedOrder := increasing_sortedSet _
  unresolved q := mem_sortedSet.trans (h.unresolved q)
  usedAsDataOrder := increasing_sortedSet _
  usedAsData n := mem_sortedSet.trans (h.usedAsData n)
  methodsOrder := by
    have hkeys : d.freeze.methods.map (·.qualifiedName) =
        d.methods.sorted.map (·.1) := by
      show (d.methods.sorted.map (·.2)).map _ = _
      rw [List.map_map]
      exact List.map_congr_left fun e he =>
        (h.method_key (List.mem_mergeSort.mp he)).symm
    rw [hkeys]
    exact Table.increasing_sorted h.methodsOnce
  methods m := by
    rw [← h.methods]
    constructor
    · intro hm
      obtain ⟨⟨q, m'⟩, he, rfl⟩ := List.mem_map.mp hm
      have he := List.mem_mergeSort.mp he
      rw [← h.method_key he]
      exact Table.get?_of_mem h.methodsOnce he
    · intro hm
      exact List.mem_map.mpr
        ⟨(m.qualifiedName, m), List.mem_mergeSort.mpr (Table.get?_mem hm), rfl⟩

theorem Waiting.nil_iff {names : List String} (h : Waiting edits names) :
    names = [] ↔ ∀ n, IsRegistered edits n → IsCompleted edits n := by
  rw [List.eq_nil_iff_forall_not_mem]
  simp only [h.members, not_and, not_not]

/-- A list of edits determines what it makes of a package. -/
theorem Recounts.unique {p p' : Package} (h : Recounts package root edits p)
    (h' : Recounts package root edits p') : p = p' := by
  have hnames : ∀ {ns ns' : List String}, ns.Pairwise (· < ·) →
      ns'.Pairwise (· < ·) → (∀ n, n ∈ ns ↔ n ∈ ns') → ns = ns' :=
        fun hs hs' hm => hs.eq_of_mem_iff hs' hm
  -- every part of a package is in order and has no two of a name, so its
  -- members determine it
  have hstructs : p.structs = p'.structs := by
    have hentries : ∀ e, e ∈ p.structs.entries ↔ e ∈ p'.structs.entries := by
      have hsame : ∀ n, p.structs.get? n = p'.structs.get? n := fun n =>
        Option.ext fun st => (h.structs n st).trans (h'.structs n st).symm
      rintro ⟨n, st⟩
      constructor
      · intro he
        have hget := Table.get?_of_mem (h.structsOrder.imp ne_of_lt) he
        exact Table.get?_mem ((hsame n).symm.trans hget)
      · intro he
        have hget := Table.get?_of_mem (h'.structsOrder.imp ne_of_lt) he
        exact Table.get?_mem ((hsame n).trans hget)
    exact congrArg Table.mk ((List.pairwise_map.mp h.structsOrder).eq_of_mem_iff
      (List.pairwise_map.mp h'.structsOrder) hentries)
  have hmethods : p.methods = p'.methods :=
    (List.pairwise_map.mp h.methodsOrder).eq_of_mem_iff
      (List.pairwise_map.mp h'.methodsOrder) fun m =>
        (h.methods m).trans (h'.methods m).symm
  obtain ⟨name, isRoot, structs, references, unresolved, usedAsData, methods⟩ :=
    p
  obtain ⟨name', isRoot', structs', references', unresolved', usedAsData',
      methods'⟩ := p'
  cases h.name.trans h'.name.symm
  cases h.isRoot.trans h'.isRoot.symm
  cases hstructs
  cases hmethods
  cases hnames h.referencesOrder h'.referencesOrder fun q =>
    (h.references q).trans (h'.references q).symm
  cases hnames h.unresolvedOrder h'.unresolvedOrder fun q =>
    (h.unresolved q).trans (h'.unresolved q).symm
  cases hnames h.usedAsDataOrder h'.usedAsDataOrder fun n =>
    (h.usedAsData n).trans (h'.usedAsData n).symm
  rfl

/-- The edits that give the structs of these names their fields. -/
def completions (names : List String) (fields : String → List StructField) :
    List Edit :=
  names.map fun n => .complete n (fields n)

theorem isCompleted_completions {names : List String}
    {fields : String → List StructField} {n : String} :
    IsCompleted (completions names fields) n ↔ n ∈ names := by
  simp only [IsCompleted, last?, completions, List.findSome?_isSome_iff,
    List.mem_reverse, List.mem_map]
  constructor
  · rintro ⟨e, ⟨m, hm, rfl⟩, hc⟩
    have hmn : m = n := by
      by_contra hne
      simp [completion?, hne] at hc
    exact hmn ▸ hm
  · intro hn
    exact ⟨_, ⟨n, hn, rfl⟩, by simp [completion?]⟩

theorem not_isRegistered_completions {names : List String}
    {fields : String → List StructField} {n : String} :
    ¬IsRegistered (completions names fields) n := by
  simp only [IsRegistered, first?, completions,
    List.findSome?_isSome_iff, List.mem_map]
  rintro ⟨_, ⟨m, -, rfl⟩, hr⟩
  cases hr

/-- Structs that wait can be given their fields, in one edit each. -/
theorem Recorded.completed (h : Recorded package root edits d)
    {names : List String} (hnames : Waiting edits names)
    (fields : String → List StructField) :
    ∃ d', Building.edits (completions names fields) ⟨d, none⟩ =
    (.ok (), ⟨d', none⟩) ∧
      Recorded package root (edits ++ completions names fields) d' ∧
      d'.pending = [] := by
  have hfollows : ∀ before e after, completions names fields =
      before ++ e :: after → InOrder (edits ++ before) e := by
    intro before e after hm
    obtain ⟨n, hwaits, rfl⟩ :=
      List.mem_map.mp (by rw [← completions, hm]; simp :
      e ∈ names.map fun n => Edit.complete n (fields n))
    exact isRegistered_append.mpr (.inl ((hnames.members n).mp hwaits).1)
  obtain ⟨d', hrun, hd'⟩ := h.run hfollows
  refine ⟨d', hrun, hd', hd'.waiting.nil_iff.mpr fun n hn => ?_⟩
  have hn := (isRegistered_append.mp hn).resolve_right
    not_isRegistered_completions
  rw [isCompleted_append, isCompleted_completions, hnames.members]
  by_cases hc : IsCompleted edits n
  · exact .inr hc
  · exact .inl ⟨hn, hc⟩

end Recorded

/-- What is built is read off the history of the builder. A package can be built
if every registered struct has got its fields, and it is what the edits say;
else the builder names the structs that wait, stays as it is, and builds once
these get their fields, whatever they are. -/
theorem build_of_history (package : String) (root : Bool) {edits : List Edit}
    (h : Edit.Ordered edits) :
    ∃ b, Building.edits edits (Builder.fresh package root) = (.ok (), b) ∧
      ((∃ p b', Building.build b = (.ok p, b')) ↔
        ∀ n, Edit.IsRegistered edits n → Edit.IsCompleted edits n) ∧
      (∀ p b', Building.build b = (.ok p, b') → Recounts package root edits p) ∧
      ∀ f b', Building.build b = (.error f, b') → b' = b ∧
        ∃ names, f = .placeholders package names ∧ Waiting edits names ∧
          ∀ fields : String → List StructField, ∃ b₁ p b₂,
            Building.edits (completions names fields) b = (.ok (), b₁) ∧
              Building.build b₁ = (.ok p, b₂) ∧
              Recounts package root (edits ++ completions names fields) p := by
  -- the draft after the edits is the one that they record, and all three
  -- statements are about building from it
  have hstart : Recorded package root [] (Builder.fresh package root).draft :=
    Recorded.start
  obtain ⟨d, hrun, hd⟩ := hstart.run h
  rw [List.nil_append] at hd
  refine ⟨⟨d, none⟩, hrun, ?_, ?_, ?_⟩
  · rw [← hd.waiting.nil_iff, Building.build_open]
    split
    · next hnone => exact iff_of_true ⟨_, _, rfl⟩ hnone
    · next hsome =>
        refine iff_of_false ?_ hsome
        rintro ⟨p, b', hb⟩
        cases hb
  · intro p b' hb
    rw [Building.build_open] at hb
    split at hb
    · next hnone =>
        cases hb
        exact hd.freeze hnone
    · cases hb
  · intro f b' hf
    rw [Building.build_open] at hf
    split at hf
    · cases hf
    · cases hf
      refine ⟨rfl, d.pending, by rw [hd.name], hd.waiting, fun fields => ?_⟩
      obtain ⟨d', hmore, hd', hnone⟩ := hd.completed hd.waiting fields
      refine ⟨⟨d', none⟩, d'.freeze, ⟨d', some d'.freeze⟩, hmore, ?_,
        hd'.freeze hnone⟩
      rw [Building.build_open, if_pos hnone]

namespace Sample

/-- A field of text. -/
def textField : StructField := ⟨"text", .primitive .string, []⟩

/-- Both structs are registered twice and one gets its fields twice. -/
def noteEdits : List Edit :=
  [.register "Note" "main" ["kept"], .complete "Note" [], .addReference "main",
    .register "Link" "shared" [], .register "Note" "other" [],
    .addReference "net", .complete "Link" [], .markUsedAsData "Note",
    .register "Link" "main" ["late"], .complete "Note" [textField]]

/-- Every struct of these edits has got its fields in the end, and the note the
ones it got last, for the module it was registered for first. -/
theorem notes_built : Edit.Ordered noteEdits ∧ ∃ b p b',
    Building.edits noteEdits (Builder.fresh "main" true) = (.ok (), b) ∧
      Building.build b = (.ok p, b') ∧
      Recounts "main" true noteEdits p ∧
        p.structs.get? "Note" =
        some ⟨"main", "main", "Note", [textField], ["kept"]⟩ := by
  have hordered : Edit.Ordered noteEdits := by decide
  obtain ⟨b, hrun, hbuilds, hrecounts, -⟩ :=
    build_of_history "main" true hordered
  obtain ⟨p, b', hb⟩ := hbuilds.mpr (by
    intro n hn
    by_cases hnote : n = "Note"
    · subst hnote
      decide
    · by_cases hlink : n = "Link"
      · subst hlink
        decide
      · simp [Edit.IsRegistered, Edit.first?, Edit.registration?,
        noteEdits, Ne.symm hnote,
          Ne.symm hlink] at hn)
  have hp := hrecounts p b' hb
  exact ⟨hordered, b, p, b', hrun, hb, hp,
    (hp.structs _ _).mpr
      ⟨"main", ["kept"], [textField], by decide, by decide, rfl⟩⟩

end Sample

end BridgeBindings
