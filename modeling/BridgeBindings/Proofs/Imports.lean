import BridgeBindings.Proofs.Exports

/-!
# What is shown is imported

A package imports the packages that its declarations of classes and methods have
mentioned: whoever mentions a struct of another package records the reference
for the package that the mention is resolved for. For a field this is the
package of the class that declares it. A field that comes by inheritance from a
class of another package was recorded there and nowhere else, so these fields
decide alone whether a package imports all that it shows.
-/

namespace BridgeBindings

open Syntax Render

/-! ## Types as they are shown -/

/-- The structs that a type names when it is shown; of a mapping's key only the
kind is. -/
def TypeRef.shownRefs : TypeRef → List StructKey
  | .struct key => [key]
  | .pointer elem | .sequence elem | .mapping _ elem => elem.shownRefs
  | .primitive _ | .external _ | .any => []

theorem TypeRef.structRefs_of_shown {type : TypeRef} {k : StructKey}
    (h : k ∈ type.shownRefs) : k ∈ type.structRefs := by
  induction type with
  | struct key => exact h
  | pointer elem ih => exact ih h
  | sequence elem ih => exact ih h
  | mapping key elem _ ih => exact List.mem_append_right _ (ih h)
  | primitive p => exact h
  | external name => exact h
  | any => exact h

/-- How a struct of another package is shown. -/
def Render.foreignName (k : StructKey) : String :=
  importName k.package ++ "." ++ k.name

/-- A type shows each foreign struct that it names through its
package's import. -/
theorem foreignName_shown {package : String} {type : TypeRef} {k : StructKey}
    (h : k ∈ type.shownRefs) (hk : k.package ≠ package) :
    (foreignName k).toList <:+: (typeScript package type).toList := by
  induction type with
  | struct key =>
      rw [List.mem_singleton.mp h] at hk ⊢
      rw [typeScript, if_neg hk]
      exact List.infix_refl _
  | pointer elem ih =>
      rw [typeScript, String.toList_append]
      exact (ih h).trans (List.prefix_append _ _).isInfix
  | sequence elem ih =>
      rw [typeScript, String.toList_append, String.toList_append]
      exact (ih h).trans (List.infix_append _ _ _)
  | mapping key elem _ ih =>
      rw [typeScript]
      simp only [String.toList_append]
      exact (ih h).trans (List.infix_append _ _ _)
  | primitive p => exact absurd h List.not_mem_nil
  | external name => exact absurd h List.not_mem_nil
  | any => exact absurd h List.not_mem_nil

/-! ## Packages -/

/-- A struct that the declarations of a package name, in a field of a data
struct or in the signature of a bound method. -/
def Package.Shows (p : Package) (k : StructKey) : Prop :=
  (∃ st ∈ p.dataStructs, ∃ f ∈ st.fields, k ∈ f.type.shownRefs) ∨
    ∃ m ∈ p.methods, (∃ param ∈ m.params, k ∈ param.type.shownRefs) ∨
      ∃ type ∈ m.result, k ∈ type.shownRefs

instance (p : Package) (k : StructKey) : Decidable (p.Shows k) :=
  inferInstanceAs (Decidable (_ ∨ _))

/-- A package that another one refers to, with the line that imports it. -/
def Package.Imports (p : Package) (q : String) : Prop :=
  q ∈ p.references ∧ importLine q ∈ declarationLines p

/-- A field that a class of this struct has from a class of another package. -/
def FromAbroad (t : Symbols) (k : StructKey) (field : String) : Prop :=
  ∃ c d, c.key = k ∧ Supplies t field c d ∧ d.package ≠ k.package

theorem imports_of_references {p : Package} {q : String}
    (h : q ∈ p.references) : p.Imports q := by
  refine ⟨h, ?_⟩
  unfold declarationLines
  refine List.mem_append_left _
    (List.mem_append_left _ (List.mem_append_left _ ?_))
  exact List.mem_cons_of_mem _ (List.mem_map_of_mem h)

section Analyzed

variable {t : Symbols} {r : AnalysisResult} {s : Store} (h : Analyzed t r s)

include h

theorem Analyzed.name {q : String} {p : Package}
    (hp : r.packages.get? q = some p) : p.name = q := by
  obtain ⟨-, rfl⟩ := h.built q p hp
  show ((classify t r.surface s).draft q).name = q
  rw [(marked_classify t r.surface s q).name]
  exact h.filled.wellFormed.named q

/-- What is known to a package when it has been filled is imported by it. -/
theorem Analyzed.imports {q : String} {p : Package} {k : StructKey}
    (hp : r.packages.get? q = some p) (hk : Imported q k s)
    (hforeign : k.package ≠ q) : p.Imports k.package := by
  obtain ⟨-, rfl⟩ := h.built q p hp
  refine imports_of_references (mem_sortedSet.mpr ?_)
  rw [(marked_classify t r.surface s q).references]
  exact hk.2.resolve_left hforeign

/-- A field that is not from abroad has its foreign structs imported. -/
theorem Analyzed.imports_field {p : Package} {q : String} {st : Struct}
    {f : StructField} {k : StructKey} (hp : r.packages.get? q = some p)
    (hst : st ∈ p.dataStructs) (hf : f ∈ st.fields)
    (hhome : ¬FromAbroad t ⟨q, st.name⟩ f.name) (hk : k ∈ f.type.structRefs)
    (hforeign : k.package ≠ q) : p.Imports k.package := by
  obtain ⟨hget, -, -⟩ := h.dataStruct hp hst
  obtain ⟨c, d, hc, hd, hrefs⟩ := h.filled.wellFormed.sourced _ st hget f hf
  have hpackage : d.package = q := by
    by_contra hne
    exact hhome ⟨c, d, hc, hd, hne⟩
  rw [hpackage] at hrefs
  exact h.imports hp (hrefs k hk) hforeign

/-- Bound methods have their foreign structs imported. -/
theorem Analyzed.imports_method {p : Package} {q : String} {m : BoundMethod}
    {k : StructKey} (hp : r.packages.get? q = some p) (hm : m ∈ p.methods)
    (hk : k ∈ m.structRefs) (hforeign : k.package ≠ q) : p.Imports k.package :=
  h.imports hp (h.filled.wellFormed.methods q m (h.method hp hm) k hk) hforeign

end Analyzed

/-- A package imports every foreign package that it shows exactly if it does so
for the fields that its structs have from classes of other packages. -/
theorem imports_shown_iff {config : Config} {program : Program} {log : Log}
    {r : AnalysisResult} {p : Package} {q : String}
    (hr : Analysis.answer config program log = .ok r)
    (hp : r.packages.get? q = some p) :
    (∀ k, p.Shows k → k.package ≠ q → p.Imports k.package) ↔
      ∀ st ∈ p.dataStructs, ∀ f ∈ st.fields,
        FromAbroad (Symbols.ofProgram program) ⟨q, st.name⟩ f.name →
          ∀ k ∈ f.type.shownRefs, k.package ≠ q → p.Imports k.package := by
  obtain ⟨s, h⟩ := answer_analyzed hr
  constructor
  · intro hall st hst f hf _ k hk
    exact hall k (.inl ⟨st, hst, f, hf, hk⟩)
  · rintro habroad k (⟨st, hst, f, hf, hk⟩ | ⟨m, hm, hk⟩) hforeign
    · by_cases hfrom : FromAbroad (Symbols.ofProgram program)
        ⟨q, st.name⟩ f.name
      · exact habroad st hst f hf hfrom k hk hforeign
      · exact h.imports_field hp hst hf hfrom
          (TypeRef.structRefs_of_shown hk) hforeign
    · refine h.imports_method hp hm ?_ hforeign
      rcases hk with ⟨param, hparam, hk⟩ | ⟨type, htype, hk⟩
      · exact List.mem_append_left _
          (List.mem_flatMap.mpr ⟨param, hparam, TypeRef.structRefs_of_shown hk⟩)
      · exact List.mem_append_right _ (List.mem_flatMap.mpr
          ⟨type, Option.mem_toList.mpr htype, TypeRef.structRefs_of_shown hk⟩)

namespace Sample

def baseSource : Source :=
  source "base" "base" [.cls (cls "Base" [] [field "next" (name "Base")])]

def orderSource : Source := source "main" "main"
  [usesBridge, .importFrom (some "base") 0 [⟨"Base", none⟩],
    .cls (cls "Order" ["Base"] [.other]), emitted "Order"]

/-- A data struct whose only field comes from a class of another package. -/
def abroad : Program := program [baseSource, orderSource]

theorem abroad_symbols : Symbols.ofProgram abroad =
    ⟨.ofList [("base", .ofSource baseSource),
      ("main", .ofSource orderSource)]⟩ :=
  symbols_apart (f := baseSource) (g := orderSource) (by decide) (by decide)

theorem abroad_scopes : (Symbols.ofProgram abroad).sortedScopes =
    [.ofSource baseSource, .ofSource orderSource] := by
  rw [abroad_symbols]
  unfold Symbols.sortedScopes
  rw [List.mergeSort_of_pairwise (by decide)]
  rfl

theorem abroad_names : sortNames abroad.packages.keys = ["base", "main"] :=
  List.mergeSort_of_pairwise (by decide)

theorem abroad_answer : ∃ r p, Analysis.answer config abroad [] = .ok r ∧
    r.packages.get? "main" = some p ∧ p.Shows ⟨"base", "Base"⟩ ∧
    "base" ∉ p.references := by
  have hcheck :
      ((Analysis.answer config abroad []).toOption.bind
        (·.packages.get? "main")).any
      (fun p => decide (p.Shows ⟨"base", "Base"⟩ ∧ "base" ∉ p.references)) =
      true := by
    unfold Analysis.answer Analyze.program classify payloadSeeds Analyze.records
      Analyze.classes Store.ofPackages
    simp only [abroad_scopes, abroad_names, StructKey.sortedSet_eq]
    simp only [abroad_symbols]
    decide +kernel
  obtain ⟨p, hp, hk⟩ := (Option.any_eq_true _ _).mp hcheck
  obtain ⟨r, hr, hp⟩ := Option.bind_eq_some_iff.mp hp
  exact ⟨r, p, ok_of_toOption hr, hp, of_decide_eq_true hk⟩

/-- The base class's package has recorded what the field mentions; the package
that shows the field has not. -/
theorem abroad_unimported : ∃ r p, Analysis.answer config abroad [] = .ok r ∧
    r.packages.get? "main" = some p ∧ p.Shows ⟨"base", "Base"⟩ ∧
    ¬p.Imports "base" := by
  obtain ⟨r, p, hr, hp, hshows, hmissing⟩ := abroad_answer
  exact ⟨r, p, hr, hp, hshows, fun h => hmissing h.1⟩

/-- A package shows a struct of another one by a field that is
inherited from there. -/
theorem abroad_imports_iff : ∃ r p, Analysis.answer config abroad [] = .ok r ∧
    r.packages.get? "main" = some p ∧
    ((∀ k, p.Shows k → k.package ≠ "main" → p.Imports k.package) ↔
      ∀ st ∈ p.dataStructs, ∀ f ∈ st.fields,
        FromAbroad (Symbols.ofProgram abroad) ⟨"main", st.name⟩ f.name →
          ∀ k ∈ f.type.shownRefs, k.package ≠ "main" →
          p.Imports k.package) := by
  obtain ⟨r, p, hr, hp, -, -⟩ := abroad_answer
  exact ⟨r, p, hr, hp, imports_shown_iff hr hp⟩

end Sample

end BridgeBindings
