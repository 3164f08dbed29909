import BridgeBindings.Proofs.Samples
import BridgeBindings.Proofs.Stages
import BridgeBindings.Render.Bindings

/-!
# What is mentioned is exported

The structs that cross the bridge are what the worklist reaches from the surface
and the payloads. Marking them changes nothing else of the drafts, so a struct
that a package shows as data was reached, all its fields were known to the
graph, and whatever they mention was reached, too. A struct that is mentioned is
always registered in its package; so it is marked there, and if that package is
built, its declarations have the interface.
-/

namespace BridgeBindings

open Syntax

/-! ## Marking -/

/-- The structs that an analysis starts from when it looks for data. -/
def dataSeeds (t : Symbols) (surface : Surface) (s : Store) : List StructKey :=
  StructKey.sortedSet
    (surfaceSeeds surface ++
      (payloadSeeds t surface.bridge s).map fun (_, c) => c.key)

/-- The structs that cross the bridge. -/
def usedKeys (t : Symbols) (surface : Surface) (s : Store) : List StructKey :=
  StructKey.sortedSet ((structGraph s).reachable (dataSeeds t surface s))

/-- A draft that differs in nothing but its marks, and which it has got. -/
structure Marked (d : Draft) (marks : String → Prop) (d' : Draft) : Prop where
  name : d'.name = d.name
  structs : d'.structs = d.structs
  resolved : d'.resolved = d.resolved
  references : d'.references = d.references
  methods : d'.methods = d.methods
  marks : ∀ n, n ∈ d'.usedAsData ↔ marks n ∨ n ∈ d.usedAsData

namespace Marked

theorem refl {d : Draft} {marks : String → Prop} (h : ∀ n, ¬marks n) :
    Marked d marks d :=
  ⟨rfl, rfl, rfl, rfl, rfl, fun n => (or_iff_right (h n)).symm⟩

theorem trans {d d' d'' : Draft} {first rest marks : String → Prop}
    (h : Marked d first d') (h' : Marked d' rest d'')
    (hmarks : ∀ n, marks n ↔ first n ∨ rest n) : Marked d marks d'' where
  name := h'.name.trans h.name
  structs := h'.structs.trans h.structs
  resolved := h'.resolved.trans h.resolved
  references := h'.references.trans h.references
  methods := h'.methods.trans h.methods
  marks n := by rw [h'.marks, h.marks, hmarks, or_left_comm, or_assoc]

theorem pending {d d' : Draft} {marks : String → Prop} (h : Marked d marks d') :
    d'.pending = d.pending := by
  unfold Draft.pending Draft.isResolved
  rw [h.structs, h.resolved]

end Marked

theorem marked_markData (s : Store) (k : StructKey) (p : String) :
    Marked (s.draft p) (fun n => k = ⟨p, n⟩ ∧ Registered k s)
    ((markData s k).draft p) := by
  unfold markData
  cases hk : s.get? k with
  | none =>
      refine Marked.refl fun n h => ?_
      obtain ⟨-, st, hst⟩ := h
      rw [hk] at hst
      cases hst
  | some st =>
      dsimp only
      rw [Store.draft_setDraft]
      split
      · next hp =>
          subst hp
          refine ⟨rfl, rfl, rfl, rfl, rfl, fun n => ?_⟩
          have hmark : (k = ⟨k.package, n⟩ ∧ Registered k s) ↔ n = k.name :=
            ⟨fun h => (congrArg StructKey.name h.1).symm,
              fun h => ⟨by rw [h], st, hk⟩⟩
          rw [hmark]
          exact List.mem_cons
      · next hp =>
          exact Marked.refl fun n h => hp (congrArg StructKey.package h.1).symm

theorem registered_markData (s : Store) (k k' : StructKey) :
    Registered k' (markData s k) ↔ Registered k' s := by
  have hstructs := (marked_markData s k k'.package).structs
  unfold Registered Store.get? Draft.get?
  rw [hstructs]

theorem marked_markAll (keys : List StructKey) (s : Store) (p : String) :
    Marked (s.draft p) (fun n => ⟨p, n⟩ ∈ keys ∧ Registered ⟨p, n⟩ s)
      ((keys.foldl markData s).draft p) := by
  induction keys generalizing s with
  | nil => exact Marked.refl fun n h => absurd h.1 List.not_mem_nil
  | cons k keys ih =>
      refine (marked_markData s k p).trans (ih (markData s k)) fun n => ?_
      rw [registered_markData, List.mem_cons, or_and_right]
      refine or_congr_left ⟨?_, ?_⟩
      · rintro ⟨rfl, hr⟩
        exact ⟨rfl, hr⟩
      · rintro ⟨rfl, hr⟩
        exact ⟨rfl, hr⟩

/-- Classifying marks the registered structs among those in use,
and that is all. -/
theorem marked_classify (t : Symbols) (surface : Surface)
    (s : Store) (p : String) :
    Marked (s.draft p)
      (fun n => ⟨p, n⟩ ∈ usedKeys t surface s ∧ Registered ⟨p, n⟩ s)
      ((classify t surface s).draft p) := by
  have hlogged : ∀ (payloads : List (String × ProgramClass)) (s : Store),
      (payloads.foldl
        (fun s (module, c) => s.note (payloadRecord module c)) s).drafts =
        s.drafts := by
    intro payloads
    induction payloads with
    | nil => exact fun _ => rfl
    | cons x payloads ih => exact fun s => ih _
  have hmarked :=
    marked_markAll (usedKeys t surface s)
      ((payloadSeeds t surface.bridge s).foldl
    (fun s (module, c) => s.note (payloadRecord module c)) s) p
  unfold Registered Store.get? Store.draft at hmarked
  rw [hlogged] at hmarked
  exact hmarked

/-! ## What is in use -/

section Used

variable {t : Symbols} {surface : Surface} {s : Store}

theorem mem_usedKeys {k : StructKey} :
    k ∈ usedKeys t surface s ↔ k ∈ (structGraph s).reachable
    (dataSeeds t surface s) :=
  StructKey.mem_sortedSet

theorem used_of_surface {m : BoundMethod} {k : StructKey}
    (hm : m ∈ surface.methods) (hk : k ∈ m.structRefs) :
    k ∈ usedKeys t surface s := by
  refine mem_usedKeys.mpr (StructGraph.mem_reachable_starts _ ?_)
  exact StructKey.mem_sortedSet.mpr
    (List.mem_append_left _ (List.mem_flatMap.mpr ⟨m, hm, hk⟩))

theorem draft_mem_values {p n : String} {st : Struct}
    (h : (s.draft p).get? n = some st) : s.draft p ∈ s.drafts.values := by
  unfold Store.draft at h ⊢
  cases hd : s.drafts.get? p with
  | none =>
      rw [hd] at h
      cases h
  | some d => exact Table.mem_values_of_get? hd

/-- The fields of a struct that has them lead on from it. -/
theorem used_of_field (hs : WellFormed t s) {k k' : StructKey} {st : Struct}
    {f : StructField} (hk : k ∈ usedKeys t surface s) (hst : s.get? k = some st)
    (hresolved : k.name ∈ (s.draft k.package).resolved) (hf : f ∈ st.fields)
    (hk' : k' ∈ f.type.structRefs) : k' ∈ usedKeys t surface s := by
  refine mem_usedKeys.mpr
    (StructGraph.mem_reachable_targets _ (mem_usedKeys.mp hk) ?_)
  obtain ⟨hpackage, hname⟩ := hs.keyed k st hst
  have hkey : k = ⟨st.package, st.name⟩ := by rw [hpackage, hname]
  rw [hkey]
  refine StructGraph.mem_targets_addStructs ?_ hf hk'
  refine List.mem_flatMap.mpr
    ⟨_, draft_mem_values hst, List.mem_filterMap.mpr ⟨k.name, ?_, hst⟩⟩
  exact mem_sortedSet.mpr hresolved

end Used

/-! ## Packages that are built -/

/-- A struct that a package mentions where its declarations show it: in a field
of a data struct, or in the signature of a bound method. -/
def Package.Mentions (p : Package) (k : StructKey) : Prop :=
  (∃ st ∈ p.dataStructs, ∃ f ∈ st.fields, k ∈ f.type.structRefs) ∨
    ∃ m ∈ p.methods, k ∈ m.structRefs

instance (p : Package) (k : StructKey) : Decidable (p.Mentions k) :=
  inferInstanceAs (Decidable (_ ∨ _))

/-- The interface of a struct in the declarations of its package. -/
def Render.interfaceLine (name : String) : String :=
  "export interface " ++ name ++ " \x7b"

theorem mem_dataStructs {p : Package} {st : Struct} :
    st ∈ p.dataStructs ↔
    ∃ n, (n, st) ∈ p.structs.entries ∧ n ∈ p.usedAsData := by
  unfold Package.dataStructs Package.sortedStructs Package.isData
  simp

theorem interfaceLine_mem {p : Package} {st : Struct} (h : st ∈ p.dataStructs) :
    Render.interfaceLine st.name ∈ Render.declarationLines p := by
  have hline : Render.interfaceLine st.name ∈ Render.structLines p.name st := by
    unfold Render.structLines Render.interfaceLine
    refine List.mem_append_left _
      (List.mem_append_left _ (List.mem_append_right _ ?_))
    exact List.mem_singleton_self _
  unfold Render.declarationLines
  refine List.mem_append_left _
    (List.mem_append_left _ (List.mem_append_right _ ?_))
  exact List.mem_flatMap.mpr ⟨st, h, hline⟩

section Analyzed

variable {t : Symbols} {r : AnalysisResult} {s : Store} (h : Analyzed t r s)

include h

/-- The data structs of a package are structs of the store that are in use and
have their fields. -/
theorem Analyzed.dataStruct {q : String} {p : Package} {st : Struct}
    (hp : r.packages.get? q = some p) (hst : st ∈ p.dataStructs) :
    s.get? ⟨q, st.name⟩ = some st ∧ ⟨q, st.name⟩ ∈ usedKeys t r.surface s ∧
      st.name ∈ (s.draft q).resolved := by
  obtain ⟨hpending, rfl⟩ := h.built q p hp
  have hmarked := marked_classify t r.surface s q
  have hwf := h.filled.wellFormed
  obtain ⟨n, hentry, hdata⟩ := mem_dataStructs.mp hst
  have hget : s.get? ⟨q, n⟩ = some st := by
    have hentry := List.mem_mergeSort.mp hentry
    rw [hmarked.structs] at hentry
    exact Table.get?_of_mem (hwf.once q) hentry
  have hname : st.name = n := (hwf.keyed _ st hget).2
  have hused : ⟨q, n⟩ ∈ usedKeys t r.surface s := by
    rcases (hmarked.marks n).mp (mem_sortedSet.mp hdata) with hn | hn
    · exact hn.1
    · rw [hwf.unused] at hn
      exact absurd hn List.not_mem_nil
  have hresolved : n ∈ (s.draft q).resolved := by
    by_contra hn
    have hwaits : n ∈ (s.draft q).pending := by
      refine mem_sortedSet.mpr
        (List.mem_filter.mpr ⟨Table.mem_keys_of_get? hget, ?_⟩)
      simpa [Draft.isResolved] using hn
    rw [hmarked.pending] at hpending
    rw [hpending] at hwaits
    exact absurd hwaits List.not_mem_nil
  rw [hname]
  exact ⟨hget, hused, hresolved⟩

theorem Analyzed.method {q : String} {p : Package} {m : BoundMethod}
    (hp : r.packages.get? q = some p) (hm : m ∈ p.methods) :
    m ∈ (s.draft q).methods.values := by
  obtain ⟨-, rfl⟩ := h.built q p hp
  obtain ⟨e, he, rfl⟩ := List.mem_map.mp hm
  have he := List.mem_mergeSort.mp he
  rw [(marked_classify t r.surface s q).methods] at he
  exact List.mem_map.mpr ⟨e, he, rfl⟩

/-- What a package mentions is registered and in use. -/
theorem Analyzed.mentions {q : String} {p : Package} {k : StructKey}
    (hp : r.packages.get? q = some p) (hk : p.Mentions k) :
    Registered k s ∧ k ∈ usedKeys t r.surface s := by
  have hwf := h.filled.wellFormed
  rcases hk with ⟨st, hst, f, hf, hk⟩ | ⟨m, hm, hk⟩
  · obtain ⟨hget, hused, hresolved⟩ := h.dataStruct hp hst
    obtain ⟨c, d, -, -, hrefs⟩ := hwf.sourced _ st hget f hf
    exact ⟨(hrefs k hk).1, used_of_field hwf hused hget hresolved hf hk⟩
  · have hmethod := h.method hp hm
    exact ⟨(hwf.methods q m hmethod k hk).1,
      used_of_surface (h.filled.covered q m hmethod) hk⟩

/-- A registered struct in use is a data struct of its package, if
that is built. -/
theorem Analyzed.exported {q : Package} {k : StructKey}
    (hq : r.packages.get? k.package = some q) (hregistered : Registered k s)
    (hused : k ∈ usedKeys t r.surface s) :
    ∃ st, q.structs.get? k.name = some st ∧ st.name = k.name ∧
    st ∈ q.dataStructs := by
  obtain ⟨-, rfl⟩ := h.built k.package q hq
  have hmarked := marked_classify t r.surface s k.package
  have hwf := h.filled.wellFormed
  obtain ⟨st, hst⟩ := hregistered
  have hentry : (k.name, st) ∈
      ((classify t r.surface s).draft k.package).freeze.structs.entries := by
    refine List.mem_mergeSort.mpr ?_
    rw [hmarked.structs]
    exact Table.get?_mem hst
  obtain ⟨st', hst'⟩ := Option.isSome_iff_exists.mp (Table.find_isSome hentry)
  have hget : s.get? k = some st' := by
    have hentry' := List.mem_mergeSort.mp (Table.find_mem hst')
    rw [hmarked.structs] at hentry'
    exact Table.get?_of_mem (hwf.once k.package) hentry'
  refine ⟨st', hst', (hwf.keyed k st' hget).2,
    mem_dataStructs.mpr ⟨k.name, ?_, ?_⟩⟩
  · exact Table.find_mem hst'
  · exact mem_sortedSet.mpr ((hmarked.marks k.name).mpr (.inl ⟨hused, st, hst⟩))

end Analyzed

/-- No interface is missing: a struct that a package mentions is a data
struct of its own package, whose declarations export it, if that package
has not failed. -/
theorem mentioned_exported {config : Config} {program : Program} {log : Log}
    {r : AnalysisResult} {p q : Package} {name : String} {k : StructKey}
    (hr : Analysis.answer config program log = .ok r)
    (hp : r.packages.get? name = some p) (hk : p.Mentions k)
    (hq : r.packages.get? k.package = some q) :
    (∃ st, q.structs.get? k.name = some st ∧ st.name = k.name ∧
      st ∈ q.dataStructs) ∧ k.name ∈ q.usedAsData ∧
        Render.interfaceLine k.name ∈ Render.declarationLines q := by
  obtain ⟨s, h⟩ := answer_analyzed hr
  obtain ⟨hregistered, hused⟩ := h.mentions hp hk
  obtain ⟨st, hst, hname, hdata⟩ := h.exported hq hregistered hused
  refine ⟨⟨st, hst, hname, hdata⟩, ?_, hname ▸ interfaceLine_mem hdata⟩
  obtain ⟨-, rfl⟩ := h.built k.package q hq
  exact mem_sortedSet.mpr
    (((marked_classify _ r.surface s k.package).marks k.name).mpr
    (.inl ⟨hused, hregistered⟩))

namespace Sample

/-- A module with a class that mentions itself, and an object of it that is
passed across the bridge. -/
def chained : Program := program
  [source "main" "main"
    [usesBridge, .cls (cls "A" [] [field "next" (name "A")]), emitted "A"]]

/-- The fields of a struct that crosses the bridge mention it, and
it is exported. -/
theorem chained_exported : ∃ r p, Analysis.answer config chained [] = .ok r ∧
    r.packages.get? "main" = some p ∧ p.Mentions ⟨"main", "A"⟩ ∧
    (∃ st, p.structs.get? "A" = some st ∧ st.name = "A" ∧ st ∈ p.dataStructs) ∧
      "A" ∈ p.usedAsData ∧
      Render.interfaceLine "A" ∈ Render.declarationLines p := by
  have hmentions : ((Analysis.answer config chained []).toOption.bind
      (·.packages.get? "main")).any
      (fun p => decide (p.Mentions ⟨"main", "A"⟩)) = true := by
    decide +kernel
  obtain ⟨p, hp, hk⟩ := (Option.any_eq_true _ _).mp hmentions
  obtain ⟨r, hr, hp⟩ := Option.bind_eq_some_iff.mp hp
  have hr := ok_of_toOption hr
  have hk := of_decide_eq_true hk
  exact ⟨r, p, hr, hp, hk, mentioned_exported hr hp hk hp⟩

end Sample

end BridgeBindings
