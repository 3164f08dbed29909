import BridgeBindings.Proofs.Histories
import BridgeBindings.Proofs.Scanning

/-!
# From stage to stage

An analysis registers, resolves, scans, resolves what is left, classifies and
builds. Up to the classification each stage leaves a store in order whose
methods are those of the surface, whatever failed on the way; what is built
afterwards is the drafts of one store, frozen, and only those on which
nothing is pending.
-/

namespace BridgeBindings

open Syntax Analyze

/-- No condition on how an analysis stops. -/
abbrev AnyFault : Fault → Prop := fun _ => True

/-! ## The first store -/

theorem draft_ofPackages (names : List String) (rootPackage : String)
    (log : Log) (p : String) :
    ∃ root, ({ Store.ofPackages names rootPackage with log := log } :
      Store).draft p = { name := p, isRoot := root } := by
  show ∃ root, ((Store.ofPackages names rootPackage).drafts.get? p).getD
      { name := p } = _
  cases h : (Store.ofPackages names rootPackage).drafts.get? p with
  | none => exact ⟨false, rfl⟩
  | some d =>
      obtain ⟨name, _, hd⟩ := List.mem_map.mp (Table.get?_ofList_mem h)
      cases hd
      exact ⟨_, rfl⟩

theorem filled_ofPackages (t : Symbols) (names : List String)
    (rootPackage : String) (log : Log) :
    Filled t [] { Store.ofPackages names rootPackage with log := log } := by
  have hdraft := draft_ofPackages names rootPackage log
  have hget : ∀ k,
      ({ Store.ofPackages names rootPackage with log := log } : Store).get? k
      = none := by
    intro k
    obtain ⟨root, h⟩ := hdraft k.package
    unfold Store.get?
    rw [h]
    rfl
  refine ⟨⟨fun p => ?_,
    fun p => ?_, fun k st hk => ?_, fun k st hk => ?_, fun p m hm => ?_,
    fun p => ?_⟩, fun p m hm => ?_⟩
  · obtain ⟨root, h⟩ := hdraft p
    rw [h]
  · obtain ⟨root, h⟩ := hdraft p
    rw [h]
    exact Table.nodup_empty
  · rw [hget] at hk
    cases hk
  · rw [hget] at hk
    cases hk
  · obtain ⟨root, h⟩ := hdraft p
    rw [h] at hm
    exact absurd hm List.not_mem_nil
  · obtain ⟨root, h⟩ := hdraft p
    rw [h]
  · obtain ⟨root, h⟩ := hdraft p
    rw [h] at hm
    exact absurd hm List.not_mem_nil

/-! ## Resolving within an analysis -/

namespace Keeps

variable {α : Type} {C : Contract} {E : Stop → Prop} {P : Store → Prop}
  {step : Resolve α} {Q : α → Store → Prop}

theorem ofResolve (h : Keeps .free E P step Q) :
    Keeps .free AnyFault P (ofResolve step) Q := by
  intro s hs hp
  obtain ⟨-, -, he⟩ := h s hs hp
  refine ⟨trivial, trivial, ?_⟩
  unfold Analyze.ofResolve
  rcases hr : step s with ⟨stop | a, s'⟩ <;> rw [hr] at he
  · trivial
  · exact he

theorem discard {ε : Type} {E : ε → Prop} {step : ExceptT ε (StateM Store) α}
    (h : Keeps C E P step Q) :
    Keeps C E P (discard step) fun _ s => ∃ a, Q a s := by
  show Keeps C E P (Functor.mapConst PUnit.unit step) _
  rw [map_const]
  exact h.map fun a _ _ hq => ⟨a, hq⟩

end Keeps

section Filled

variable {t : Symbols} {methods : List BoundMethod} {α : Type}
  {step : Resolve α} {Q : α → Store → Prop}

theorem filled_of_sound (h : Keeps (sound t) AnyStop Always step Q) :
    Keeps .free AnyStop (Filled t methods) step fun _ => Filled t methods := by
  intro s _ hs
  obtain ⟨hg, hh, -⟩ := h s hs.wellFormed trivial
  refine ⟨trivial, trivial, ?_⟩
  have hcovered := hs.covered.adds hg.drafts
  rcases hr : step s with ⟨e | a, s'⟩ <;> rw [hr] at hh hcovered
  · trivial
  · exact ⟨hh, hcovered⟩

/-- A fault leaves the store in order as well. -/
theorem filled_attempt (h : Keeps (sound t) AnyStop Always step Q) :
    Keeps .free AnyStop (Filled t methods) step.attempt fun _ =>
      Filled t methods := by
  refine Keeps.attempt fun s hs => ?_
  obtain ⟨hg, hh, -⟩ := h s hs.wellFormed trivial
  have hcovered := hs.covered.adds hg.drafts
  rcases hr : step s with ⟨(f | b | _) | a, s'⟩ <;> rw [hr] at hh hcovered
  · exact ⟨hh, hcovered⟩
  · trivial
  · trivial
  · exact ⟨hh, hcovered⟩

/-- What registering records keeps, if registering one of them does. -/
theorem registerRecords_keeps {C : Contract} {E : Stop → Prop}
    {classes : List ProgramClass}
    (htold : ∀ c ∈ classes, ∀ b, t.breakdown? c = some b → E (.broken b))
    (hregister : ∀ c ∈ classes, t.isRecord c = true →
      Keeps C E Always (Resolve.register c) fun _ _ => True) :
    Keeps C E Always (registerRecords t classes)
      fun _ _ => ∀ c ∈ classes, t.breakdown? c = none := by
  refine Keeps.forM (R := fun c _ => t.breakdown? c = none)
    (P := Always) (fun _ h => h) (fun _ _ _ _ h => h) fun c hc => ?_
  refine (Keeps.expect (htold c hc)).bind fun _ => ?_
  refine .ite (fun hrecord => ?_) fun _ => Keeps.pure fun _ _ h => h.2
  refine Keeps.mono
    (((hregister c hc hrecord).carry (p := fun _ => t.breakdown? c = none)
    fun _ h => h).discard) (fun _ _ h => h) fun _ _ _ ⟨_, h⟩ => h.2

theorem registerRecords_sound (classes : List ProgramClass) :
    Keeps (sound t) AnyStop Always (registerRecords t classes) fun _ _ =>
      True :=
  (registerRecords_keeps (fun _ _ _ _ => trivial) fun c _ _ =>
    (register_sound c).post fun _ _ _ _ => trivial).post fun _ _ _ _ => trivial

variable (hk : t.Keyed)

include hk

theorem resolveAll_sound {classes : List ProgramClass}
    (h : ∀ c ∈ classes, t.Declares c) :
    Keeps (sound t) AnyStop Always (resolveAll t classes) fun _ _ => True :=
  (Keeps.forM (R := fun _ _ => True) (P := Always) (fun _ h => h)
    (fun _ _ _ _ h => h) fun c hc =>
    (resolve_sound hk (h c hc)).discard.post fun _ _ _ _ => trivial).post
      fun _ _ _ _ => trivial

theorem declares_classes {c : ProgramClass} (h : c ∈ classes t) :
    t.Declares c := by
  obtain ⟨scope, hscope, hc⟩ := List.mem_flatMap.mp h
  obtain ⟨e, he, rfl⟩ := List.mem_map.mp hscope
  obtain ⟨decl, hdecl, rfl⟩ := List.mem_map.mp hc
  have hvalue : e.2 ∈ t.scopes.values :=
    List.mem_map.mpr ⟨e, List.mem_mergeSort.mp he, rfl⟩
  exact Symbols.declares_of_mem_values hk
    (Symbols.has_of_mem_values hk hvalue) hdecl

theorem declares_records {c : ProgramClass} (h : c ∈ records t) :
    t.Declares c :=
  declares_classes hk (List.mem_filter.mp h).1

theorem declares_classOfStruct {st : Struct} {c : ProgramClass}
    (h : classOfStruct? t st = some c) : t.Declares c := by
  obtain ⟨scope, hs, hc⟩ := Option.bind_eq_some_iff.mp h
  obtain ⟨decl, hd, rfl⟩ := Option.map_eq_some_iff.mp hc
  exact Symbols.declares_of_get? hk hs hd

theorem resolvePackage_filled {classes : List ProgramClass}
    (h : ∀ c ∈ classes, t.Declares c) (failures : Table TypeFault)
    (package : String) :
    Keeps .free AnyFault (Filled t methods)
      (resolvePackage t classes failures package) fun _ =>
        Filled t methods := by
  refine (filled_attempt
    (resolveAll_sound hk fun c hc =>
      h c (List.mem_filter.mp hc).1)).ofResolve.bind
    fun answer => ?_
  cases answer with
  | ok _ => exact Keeps.pure fun _ _ h => h
  | error f =>
      refine (Keeps.modify (R := fun _ => Filled t methods) fun s _ h =>
        ⟨trivial, trivial, h.of_drafts rfl⟩).bind fun _ =>
          Keeps.pure fun _ _ h => h

theorem finishPackage_filled (failures : Table TypeFault) (package : String) :
    Keeps .free AnyFault (Filled t methods) (finishPackage t failures package)
      fun _ => Filled t methods := by
  unfold finishPackage
  refine .ite (fun _ => Keeps.pure fun _ _ h => h) fun _ => ?_
  refine (Keeps.get (R := fun _ => Filled t methods) fun _ _ h => h).bind
    fun seen => ?_
  extract_lets d waiting
  have hwaiting : ∀ c ∈ waiting, t.Declares c := by
    intro c hc
    obtain ⟨st, _, hst⟩ := List.mem_filterMap.mp hc
    exact declares_classOfStruct hk hst
  refine (filled_attempt (resolveAll_sound hk hwaiting)).ofResolve.bind
    fun answer => ?_
  cases answer with
  | ok _ => exact Keeps.pure fun _ _ h => h
  | error f => exact Keeps.pure fun _ _ h => h

end Filled

/-! ## Building -/

/-- The packages of a result are drafts of this store on which
nothing is pending. -/
def Built (s : Store) (r : AnalysisResult) : Prop :=
  ∀ q p, r.packages.get? q = some p → (s.draft q).pending = [] ∧
    p = (s.draft q).freeze

theorem buildPackage_built (failures : Table TypeFault) (last : Store)
    (surface : Surface) (r : AnalysisResult) (package : String) :
    Keeps .free AnyFault
      (fun s => s.drafts = last.drafts ∧ r.surface = surface ∧ Built last r)
      (buildPackage failures r package)
      fun r s => s.drafts = last.drafts ∧ r.surface = surface ∧
      Built last r := by
  unfold buildPackage
  split
  · exact Keeps.pure fun _ _ h => h
  · refine Keeps.read.bind fun seen => ?_
    rw [Building.build_open]
    by_cases hnone : (seen.draft package).pending = []
    · rw [if_pos hnone]
      refine (Keeps.modify (R := fun _ s => (s.drafts = last.drafts ∧
        r.surface = surface ∧ Built last r) ∧
        last.draft package = seen.draft package)
          fun s _ h => ?_).bind fun _ => Keeps.pure fun s _ h => ?_
      · refine ⟨trivial, trivial, h.1, ?_⟩
        unfold Store.draft
        rw [← h.1.1, h.2]
      · refine ⟨h.1.1, h.1.2.1, fun q p' hp => ?_⟩
        rw [Table.get?_insert] at hp
        split at hp
        · next hq =>
            cases hp
            rw [hq, h.2]
            exact ⟨hnone, rfl⟩
        · exact h.1.2.2 q p' hp
    · rw [if_neg hnone]
      exact Keeps.throw trivial

/-! ## The analysis -/

/-- What an analysis that has come to a result was built from. -/
structure Analyzed (t : Symbols) (r : AnalysisResult) (s : Store) : Prop where
  filled : Filled t r.surface.methods s
  built : Built (classify t r.surface s) r

theorem program_analyzed (config : Config) (p : Program) :
    Keeps .free AnyFault (Filled (Symbols.ofProgram p) [])
      (Analyze.program config p) fun r _ =>
        ∃ filled, Analyzed (Symbols.ofProgram p) r filled := by
  have hk := Symbols.keyed_ofProgram p
  unfold Analyze.program
  extract_lets t packages
  have hclasses : ∀ c ∈ records t, t.Declares c :=
    fun c hc => declares_records hk hc
  -- stage by stage: structs are filled from their classes only until the scan,
  -- and after it from the methods that were found too
  refine (filled_of_sound (registerRecords_sound _)).ofResolve.bind fun _ => ?_
  refine (Keeps.foldlM (J := fun _ => Filled t []) (fun failures package _ =>
    resolvePackage_filled hk hclasses failures package) _).bind fun failures =>
      ?_
  refine (scanSurface_filled hk config p.entryFile).ofResolve.bind fun found =>
    ?_
  obtain ⟨surface, scanned⟩ := found
  dsimp only
  refine (Keeps.foldlM (J := fun _ => Filled t surface.methods)
    (fun failures package _ =>
    finishPackage_filled hk failures package) _).bind fun failures => ?_
  refine (Keeps.modify
    (R := fun _ s => ∃ filled, Filled t surface.methods filled ∧
    s = classify t surface filled) fun s _ h =>
    ⟨trivial, trivial, s, h, rfl⟩).bind fun _ => ?_
  rintro _ _ ⟨filled, hfilled, rfl⟩
  have hbuild : Keeps .free AnyFault _ (packages.foldlM (buildPackage failures)
      { root := p.root, rootPackage := p.rootPackage, surface })
      fun r _ => ∃ filled, Analyzed t r filled :=
    (Keeps.foldlM
      (J := fun r s => s.drafts = (classify t surface filled).drafts ∧
      r.surface = surface ∧ Built (classify t surface filled) r)
        (fun r package _ =>
        buildPackage_built failures (classify t surface filled)
          surface r package) _).post
      fun r s _ h => by
        obtain ⟨-, rfl, hbuilt⟩ := h
        exact ⟨filled, hfilled, hbuilt⟩
  exact hbuild _ trivial ⟨rfl, rfl, fun q p hp => by cases hp⟩

/-- An analysis that starts with empty drafts. -/
def Analysis.answer (config : Config) (p : Program) (log : Log) :
    Except Fault AnalysisResult :=
  (Analyze.program config p
    { Store.ofPackages p.packages.keys p.rootPackage with log := log }).1

theorem answer_analyzed {config : Config} {p : Program} {log : Log}
    {r : AnalysisResult} (h : Analysis.answer config p log = .ok r) :
    ∃ filled, Analyzed (Symbols.ofProgram p) r filled := by
  obtain ⟨-, -, he⟩ := program_analyzed config p _ trivial
    (filled_ofPackages _ p.packages.keys p.rootPackage log)
  unfold Analysis.answer at h
  rcases hr : Analyze.program config p
    { Store.ofPackages p.packages.keys p.rootPackage with log := log }
    with ⟨e | a, s⟩ <;> rw [hr] at h he
  · cases h
  · cases h
    exact he

end BridgeBindings
