import BridgeBindings.Proofs.Histories
import BridgeBindings.Proofs.Refusals
import BridgeBindings.Proofs.Shallow
import BridgeBindings.Proofs.Turns

/-!
# What an analysis writes

Until it classifies, an analysis makes five of the edits that a package allows:
it registers a class, gives a struct its fields, records the package of a class
as a reference, records the name of a foreign type, and adds a method that it
has described for a class. Each of the classes is one that the program declares,
and one that gets its fields has no annotation that cannot be resolved. So a
property of drafts that these edits keep is kept by every step of every stage,
whether it stops or not.
-/

namespace BridgeBindings

open Syntax Analyze

/-- The edits that an analysis makes to the drafts before it classifies. -/
inductive Symbols.Makes (t : Symbols) : String → Edit → Prop where
  | register {c} (hc : t.Declares c) :
      t.Makes c.package (.register c.name c.module c.doc)
  | complete {c} (fields : List StructField) (hc : t.Declares c)
    (hsound : ¬t.Flawed c) : t.Makes c.package (.complete c.name fields)
  | addReference {c} (owner : String) (hc : t.Declares c) :
    t.Makes owner (.addReference c.package)
  | addUnresolved (owner name : String) : t.Makes owner (.addUnresolved name)
  | addMethod {c} {m : BoundMethod} (hc : t.Declares c)
    (hpackage : m.package = c.package) (hstruct : m.structName = c.name) :
    t.Makes c.package (.addMethod m)

/-- A property of the drafts, each with its package, that these edits keep. -/
def Symbols.Upheld (t : Symbols) (D : String → Draft → Prop) : Prop :=
  ∀ ⦃p d e⦄, t.Makes p e → D p d → D p (d.edit e)

/-- The drafts of a store have a property. -/
def Store.All (D : String → Draft → Prop) (s : Store) : Prop :=
  ∀ p, D p (s.draft p)

namespace Store.All

variable {D : String → Draft → Prop} {s s' : Store}

theorem of_drafts (hdrafts : s'.drafts = s.drafts) (h : s.All D) :
    s'.All D := by
  intro p
  unfold draft
  rw [hdrafts]
  exact h p

theorem setDraft (h : s.All D) {p : String} {d : Draft} (hd : D p d) :
    (s.setDraft p d).All D := by
  intro q
  rw [draft_setDraft]
  split
  · next hq => rwa [hq]
  · exact h q

/-- An analysis begins with empty drafts. -/
theorem ofPackages (h : ∀ p root, D p { name := p, isRoot := root })
    (names : List String) (rootPackage : String) (log : Log) :
    Store.All D { Store.ofPackages names rootPackage with log := log } := by
  intro p
  obtain ⟨root, hroot⟩ := draft_ofPackages names rootPackage log p
  rw [hroot]
  exact h p root

end Store.All

/-- To have a property and nothing else. -/
def Contract.keeping (I : Store → Prop) : Contract :=
  ⟨I, fun _ _ => True, fun _ => trivial, fun _ _ => trivial⟩

/-- A step with the property before it, and after it or when it has stopped. -/
def Upholds {ε α : Type} (D : String → Draft → Prop)
    (step : ExceptT ε (StateM Store) α) : Prop :=
  Keeps (.keeping (Store.All D)) (fun _ => True) Always step fun _ _ => True

namespace Upholds

variable {ε α β γ : Type} {D : String → Draft → Prop}
    {step : ExceptT ε (StateM Store) α}

theorem of_after (h : ∀ s, s.All D → (step s).2.All D) : Upholds D step := by
  intro s hs _
  refine ⟨trivial, h s hs, ?_⟩
  rcases step s with ⟨e | a, s'⟩ <;> trivial

theorem after (h : Upholds D step) {s : Store} (hs : s.All D) :
    (step s).2.All D :=
  (h s hs trivial).2.1

theorem pure (a : α) : Upholds D (Pure.pure a : ExceptT ε (StateM Store) α) :=
  of_after fun _ hs => hs

theorem throw (e : ε) :
    Upholds D (MonadExcept.throw e : ExceptT ε (StateM Store) α) :=
  of_after fun _ hs => hs

theorem get : Upholds D (MonadState.get : ExceptT ε (StateM Store) Store) :=
  of_after fun _ hs => hs

theorem bind {f : α → ExceptT ε (StateM Store) β} (h : Upholds D step)
    (hf : ∀ a, Upholds D (f a)) : Upholds D (step >>= f) :=
  Keeps.bind h fun a => (hf a).pre fun _ _ _ => trivial

/-- Behind a step that never comes to an answer nothing is done. -/
theorem first {step : Resolve α} (h : Upholds D step) (hr : Refuses step)
    (f : α → Resolve β) : Upholds D (step >>= f) := by
  have hnever : Keeps (.keeping (Store.All D)) (fun _ => True)
      Always step fun _ _ => False :=
    Keeps.refused h hr
  exact Keeps.bind hnever fun _ _ _ hfalse => hfalse.elim

theorem map {f : α → β} (h : Upholds D step) : Upholds D (f <$> step) :=
  Keeps.map h fun _ _ _ _ => trivial

theorem ite {c : Prop} [Decidable c] {other : ExceptT ε (StateM Store) α}
    (h : c → Upholds D step) (h' : ¬c → Upholds D other) :
    Upholds D (if c then step else other) := Keeps.ite h h'

theorem note (r : LogRecord) :
    Upholds D (modify (·.note r) : ExceptT ε (StateM Store) PUnit) :=
  of_after fun _ hs => .of_drafts rfl hs

theorem modify {f : Store → Store} (h : ∀ s, s.All D → (f s).All D) :
    Upholds D (modify f : ExceptT ε (StateM Store) PUnit) := of_after h

theorem foldlM {xs : List γ} {f : β → γ → ExceptT ε (StateM Store) β}
    (hf : ∀ b, ∀ x ∈ xs, Upholds D (f b x)) (b : β) :
    Upholds D (xs.foldlM f b) :=
  (Keeps.foldlM (J := fun _ _ => True)
    (fun b x hx => (hf b x hx).pre fun _ _ _ => trivial) b).pre
    fun _ _ _ => trivial

theorem mapM {xs : List γ} {f : γ → ExceptT ε (StateM Store) β}
    (hf : ∀ x ∈ xs, Upholds D (f x)) : Upholds D (xs.mapM f) :=
  (Keeps.mapM (R := fun _ _ _ => True) (P := Always) (fun _ _ _ _ _ h => h)
    fun x hx => (hf x hx).post fun _ _ _ _ => ⟨trivial, trivial⟩).post
      fun _ _ _ _ => trivial

theorem forM {xs : List γ} {f : γ → ExceptT ε (StateM Store) PUnit}
    (hf : ∀ x ∈ xs, Upholds D (f x)) : Upholds D (xs.forM f) :=
  (Keeps.forM (R := fun _ _ => True) (P := Always) (fun _ h => h)
    (fun _ _ _ _ h => h) hf).post
    fun _ _ _ _ => trivial

theorem attempt {step : Resolve α} (h : Upholds D step) :
    Upholds D step.attempt := by
  refine of_after fun s hs => ?_
  have hafter := h.after hs
  unfold Resolve.attempt
  rcases hr : step s with ⟨(f | b | _) | a, s'⟩ <;>
    rw [hr] at hafter <;> exact hafter

theorem lift (x : Except Breakdown α) : Upholds D (Resolve.lift x) := by
  cases x with
  | ok a => exact pure a
  | error b => exact throw _

theorem expect (b : Option Breakdown) : Upholds D (Resolve.expect b) := by
  cases b with
  | none => exact pure _
  | some b => exact throw _

theorem withClass {step : Resolve α} (key : StructKey) (h : Upholds D step) :
    Upholds D (Resolve.withClass key step) :=
  of_after fun s hs => .of_drafts (s := (step (s.entering key)).2) rfl
    (h.after (.of_drafts (s := s) rfl hs))

theorem withAlias {step : Resolve α} (name : String) (h : Upholds D step) :
    Upholds D (Resolve.withAlias name step) :=
  of_after fun s hs => .of_drafts (s := (step (s.expanding name)).2) rfl
    (h.after (.of_drafts (s := s) rfl hs))

theorem ofResolve {step : Resolve α} (h : Upholds D step) :
    Upholds D (Analyze.ofResolve step) := by
  refine of_after fun s hs => ?_
  have hafter := h.after hs
  unfold Analyze.ofResolve
  rcases hr : step s with ⟨e | a, s'⟩ <;> rw [hr] at hafter <;> exact hafter

end Upholds

/-! ## Resolving -/

/-- An expansion that keeps a property of the drafts. -/
structure Expansion.Upholds (expand : Expansion) (t : Symbols)
    (D : String → Draft → Prop) : Prop where
  cls : ∀ c, t.Declares c → BridgeBindings.Upholds D (expand.cls c)
  aliased : ∀ site scope name value, t.DeclaresAlias scope name value →
    BridgeBindings.Upholds D (expand.aliased site scope name value)

namespace Symbols.Upheld

variable {t : Symbols} {D : String → Draft → Prop} (hD : t.Upheld D)
    {expand : Expansion}

include hD

theorem changed {p : String} {e : Edit} (he : t.Makes p e) {s : Store}
    (hs : s.All D) : (s.setDraft p ((s.draft p).edit e)).All D :=
  hs.setDraft (hD he (hs p))

theorem register_upholds {c : ProgramClass} (hc : t.Declares c) :
    Upholds D (Resolve.register c) := by
  refine .of_after fun s hs => ?_
  rw [register_run]
  exact .of_drafts (s.registered_drafts c) (hD.changed (.register hc) hs)

theorem structRef_upholds (h : expand.Upholds t D) (owner : String)
    {c : ProgramClass} (hc : t.Declares c) :
    Upholds D (structRef expand owner c) :=
  (h.cls c hc).bind fun _ =>
    (Upholds.modify fun _ => hD.changed (.addReference owner hc)).bind fun _ =>
      .pure _

theorem namedType_upholds (hk : t.Keyed) (h : expand.Upholds t D) {site : Site}
    (hs : t.Has site.scope) (row : Nat) (dotted : String) :
    Upholds D (namedType t expand site row dotted) := by
  unfold namedType
  split
  · exact .throw _
  · exact (Upholds.modify fun _ => hD.changed (.addUnresolved _ _)).bind
      fun _ => .pure _
  · next hl => exact h.aliased _ _ _ _ (owns_lookup hk hs hl)
  · next hl =>
      split
      · exact .pure _
      · exact hD.structRef_upholds h _ (owns_lookup hk hs hl)
  · exact .throw _

theorem annotation_upholds (hk : t.Keyed) (h : expand.Upholds t D) (site : Site)
    (hs : t.Has site.scope) (e : Expr) :
    Upholds D (annotationWith t expand site e) := by
  refine (annotation_keeps (R := fun _ _ => True)
    (V := fun _ _ => True) (P := Always) (fun _ _ _ _ h => h)
    (fun _ _ _ _ h => h) (fun _ _ _ => trivial) fun dotted _ row => ?_).post
      fun _ _ _ _ => trivial
  exact (hD.namedType_upholds hk h hs row dotted).post fun _ _ _ _ =>
    ⟨trivial, fun _ _ => trivial, trivial⟩

theorem expandAlias_upholds (hk : t.Keyed) (h : expand.Upholds t D)
    (site : Site) {scope : Scope} {name : String} {value : Expr}
    (ha : t.DeclaresAlias scope name value) :
    Upholds D (expandAlias t expand site scope name value) := by
  unfold expandAlias
  extract_lets qualifiedName
  refine Upholds.get.bind fun seen => .ite (fun _ => .pure _) fun _ => ?_
  exact .withAlias _
    (hD.annotation_upholds hk h { site with scope := scope } ha.inTree value)

theorem collectFields_upholds (hk : t.Keyed) (h : expand.Upholds t D)
    {c : ProgramClass} (hc : t.Declares c) :
    Upholds D (collectFields t expand c) := by
  have hbase : Upholds D (baseFields expand (t.bases c)) :=
    .foldlM (fun _ b hb => (h.cls b (declares_bases hk hc hb)).bind fun _ =>
      .pure _) _
  have hown (f : FieldDecl) : Upholds D (ownField t expand c f) :=
    (hD.annotation_upholds hk h _ hc.inTree f.typeExpr).bind fun _ => .pure _
  exact hbase.bind fun inherited =>
    (Upholds.foldlM (fun _ f _ => (hown f).bind fun _ => .pure _)
      inherited).bind fun _ => .pure _

theorem resolveClass_upholds (hk : t.Keyed) (h : expand.Upholds t D)
    {c : ProgramClass} (hc : t.Declares c) :
    Upholds D (resolveClass t expand c) := by
  refine (hD.register_upholds hc).bind fun st => Upholds.get.bind fun _ =>
    Upholds.get.bind fun _ => .ite (fun _ => .pure _) fun _ => .withClass _ ?_
  have hcollect := hD.collectFields_upholds hk h hc
  by_cases hflawed : t.Flawed c
  · exact hcollect.first (collectFields_refuses hflawed) _
  refine hcollect.bind fun fields => (Upholds.note _).bind fun _ => ?_
  exact (Upholds.modify fun _ => hD.changed (.complete fields hc hflawed)).bind
    fun _ => .pure _

theorem levels_upholds (hk : t.Keyed) (n : Nat) :
    Expansion.Upholds ⟨classAt t n, aliasAt t n⟩ t D := by
  induction n with
  | zero => exact ⟨fun _ _ => .throw _, fun _ _ _ _ _ => .throw _⟩
  | succ n ih =>
      rw [levels_succ]
      refine ⟨fun c hc => ?_, fun site scope name value ha => ?_⟩
      · exact hD.resolveClass_upholds hk ih hc
      · exact hD.expandAlias_upholds hk ih site ha

theorem resolve_upholds (hk : t.Keyed) {c : ProgramClass} (hc : t.Declares c) :
    Upholds D (t.resolve c) := (hD.levels_upholds hk _).cls c hc

/-! ## Scanning -/

theorem describe_upholds (hk : t.Keyed) {declarer : ProgramClass}
    (hd : t.Declares declarer) (owner : StructKey) (f : FunctionDef) :
    Upholds D (t.describe declarer owner f) := by
  have hread (site : Site) (hs : t.Has site.scope) (e : Option Expr) :
      Upholds D (t.annotation? site e) := by
    cases e with
    | none => exact .pure _
    | some e =>
        exact hD.annotation_upholds hk (hD.levels_upholds hk _) site hs e
  unfold describe
  extract_lets site
  refine (Upholds.mapM fun p _ =>
    (hread (site _) hd.inTree _).bind fun _ => .pure _).bind fun params => ?_
  extract_lets build
  refine .ite (fun _ => ?_) fun _ =>
    (hread (site _) hd.inTree _).map.bind fun _ => .pure _
  rw [pure_bind]
  exact .pure _

theorem boundMethods_upholds (hk : t.Keyed) {c : ProgramClass}
    (hc : t.Declares c) : Upholds D (t.boundMethods c) := by
  have hdescribed : Upholds D (t.describedMethods c) := by
    refine .foldlM (fun methods d hd => (Upholds.expect _).bind fun _ => ?_) _
    exact .foldlM (fun methods f _ =>
      (hD.describe_upholds hk (declares_chainAt hk hc hd) c.key f).bind fun _ =>
        .pure _) _
  refine .of_after fun s hs => ?_
  obtain ⟨-, -, hends⟩ := describedMethods_describes t c s trivial trivial
  have hafter := hdescribed.after hs
  rw [boundMethods_eq, run_bind]
  rcases hr : t.describedMethods c s with ⟨e | described, s'⟩ <;>
    rw [hr] at hends hafter
  · exact hafter
  · dsimp only
    rw [addDescribed_run]
    refine List.foldlRecOn (motive := Store.All D) _ _ hafter
      fun s'' hs'' m hm => ?_
    obtain ⟨e, he, rfl⟩ := List.mem_map.mp hm
    obtain ⟨-, hpackage, hstruct⟩ := hends.owned e (List.mem_mergeSort.mp he)
    exact hD.changed (.addMethod hc hpackage hstruct) hs''

theorem add_upholds (hk : t.Keyed) {entry : Source} {scope : Scope}
    (hs : t.Has scope) {calls : BridgeCalls} (scan : SurfaceScan) (e : Expr) :
    Upholds D (scan.add t entry scope calls e) := by
  unfold SurfaceScan.add
  split
  · exact (Upholds.lift _).bind fun _ => (Upholds.note _).bind fun _ => .pure _
  · next c hc =>
      refine .ite (fun _ => .pure _) fun _ => ?_
      extract_lets scan'
      have hdeclared := declares_classOfWithin hk hs hc
      refine (hD.boundMethods_upholds hk hdeclared).attempt.bind fun answer =>
        ?_
      cases answer with
      | ok methods => exact .pure _
      | error f => exact (Upholds.note _).bind fun _ => .pure _

theorem scanSurface_upholds (hk : t.Keyed) (config : Config)
    (entry : Option Source) : Upholds D (scanSurface t config entry) := by
  unfold scanSurface
  extract_lets bridge
  split
  · extract_lets surface
    split
    · next scope _ hscope =>
        refine (Upholds.foldlM (fun scan e _ =>
          hD.add_upholds hk (hk.scope _ _ hscope) scan e) {}).bind fun scan =>
            ?_
        extract_lets methods
        exact (Upholds.note _).bind fun _ => .pure _
    · exact (Upholds.note _).bind fun _ => .pure _
  · exact (Upholds.note _).bind fun _ => .pure _

/-! ## The stages -/

theorem registerRecords_upholds {classes : List ProgramClass}
    (h : ∀ c ∈ classes, t.Declares c) : Upholds D (registerRecords t classes) :=
  .forM fun c hc => (Upholds.expect _).bind fun _ => .ite
    (fun _ => Keeps.discard (hD.register_upholds (h c hc))
      |>.post fun _ _ _ _ => trivial)
    fun _ => .pure _

theorem resolveAll_upholds (hk : t.Keyed) {classes : List ProgramClass}
    (h : ∀ c ∈ classes, t.Declares c) :
    Upholds D (ofResolve (resolveAll t classes).attempt) :=
  (Upholds.forM fun c hc =>
    Keeps.discard (hD.resolve_upholds hk (h c hc)) |>.post fun _ _ _ _ =>
      trivial).attempt.ofResolve

theorem resolvePackage_upholds (hk : t.Keyed) {classes : List ProgramClass}
    (h : ∀ c ∈ classes, t.Declares c) (failures : Table TypeFault)
    (package : String) :
    Upholds D (resolvePackage t classes failures package) := by
  unfold resolvePackage
  refine (hD.resolveAll_upholds hk fun c hc =>
    h c (List.mem_filter.mp hc).1).bind fun answer => ?_
  cases answer with
  | ok _ => exact .pure _
  | error f => exact (Upholds.note _).bind fun _ => .pure _

theorem finishPackage_upholds (hk : t.Keyed) (failures : Table TypeFault)
    (package : String) : Upholds D (finishPackage t failures package) := by
  unfold finishPackage
  refine .ite (fun _ => .pure _) fun _ => Upholds.get.bind fun seen => ?_
  extract_lets d waiting
  have hwaiting : ∀ c ∈ waiting, t.Declares c := by
    intro c hc
    obtain ⟨st, -, hst⟩ := List.mem_filterMap.mp hc
    exact declares_classOfStruct hk hst
  refine (hD.resolveAll_upholds hk hwaiting).bind fun answer => ?_
  cases answer with
  | ok _ => exact .pure _
  | error f => exact .pure _

end Symbols.Upheld

namespace Order

variable {p : Program}

/-- The analysis between registering and building. -/
def settling (o : Order p) (config : Config) :
    Analyze (Surface × Table TypeFault) := do
  let failures ← o.packages.foldlM
      (resolvePackage (Symbols.ofProgram p) o.classes) .empty
  let (surface, scanned) ←
      ofResolve (scanSurface (Symbols.ofProgram p) config p.entryFile)
  let failures :=
    scanned.entries.foldl
      (fun fs (package, f) => chargeLater fs package f) failures
  let failures ← o.packages.foldlM
      (finishPackage (Symbols.ofProgram p)) failures
  return (surface, failures)

theorem surveying_eq (o : Order p) (config : Config) : o.surveying config =
    ofResolve (registerRecords (Symbols.ofProgram p)
      (Analyze.classes (Symbols.ofProgram p))) >>= fun _ =>
      o.settling config := by
  unfold surveying resolving settling
  rw [bind_assoc]

/-- What is built is what the store has when it is classified. -/
theorem building_built (o : Order p) (surface : Surface)
    (failures : Table TypeFault) {s s' : Store} {r : AnalysisResult}
    (h : o.building surface failures s = (.ok r, s')) :
    Built (classify (Symbols.ofProgram p) surface s) r := by
  have hbuild := Keeps.foldlM (J := fun (r : AnalysisResult) s' =>
    s'.drafts = (classify (Symbols.ofProgram p) surface s).drafts ∧
      r.surface = surface ∧ Built (classify (Symbols.ofProgram p) surface s) r)
    (fun r package (_ : package ∈ o.packages) =>
      buildPackage_built failures (classify (Symbols.ofProgram p) surface s)
        surface r package)
    { root := p.root, rootPackage := p.rootPackage, surface }
  obtain ⟨-, -, hends⟩ :=
    hbuild (classify (Symbols.ofProgram p) surface s) trivial
    ⟨rfl, rfl, fun q p' hp => by cases hp⟩
  have hrun : o.packages.foldlM (buildPackage failures)
      { root := p.root, rootPackage := p.rootPackage, surface }
      (classify (Symbols.ofProgram p) surface s) = (.ok r, s') := h
  rw [hrun] at hends
  exact hends.2.2

section Upheld

variable {D : String → Draft → Prop} (hD : (Symbols.ofProgram p).Upheld D)

include hD

theorem settling_upholds (o : Order p) (config : Config) :
    Upholds D (o.settling config) := by
  have hk := Symbols.keyed_ofProgram p
  have hclasses : ∀ c ∈ o.classes,
      (Symbols.ofProgram p).Declares c := fun c hc =>
    declares_records hk (o.classes_perm.mem_iff.mp hc)
  unfold settling
  refine (Upholds.foldlM (fun failures package _ =>
    hD.resolvePackage_upholds hk hclasses failures package) _).bind
      fun failures => ?_
  refine (hD.scanSurface_upholds hk config p.entryFile).ofResolve.bind
    fun found => ?_
  obtain ⟨surface, scanned⟩ := found
  exact (Upholds.foldlM (fun failures package _ =>
    hD.finishPackage_upholds hk failures package) _).bind fun _ => .pure _

/-- What is built is what the drafts of a store with the property are, once they
are classified, if the store in which all classes are registered has it. -/
theorem answer_settled (o : Order p) {config : Config} {log : Log}
    (hregistered : ∀ registered, registerRecords (Symbols.ofProgram p)
      (Analyze.classes (Symbols.ofProgram p))
      { Store.ofPackages p.packages.keys p.rootPackage with log := log } =
      (.ok (), registered) →
        registered.All D)
    {r : AnalysisResult} (h : o.answer config log = .ok r) :
    ∃ surface s, s.All D ∧
    Built (classify (Symbols.ofProgram p) surface s) r := by
  unfold answer analysis at h
  rw [run_bind, surveying_eq, run_bind] at h
  unfold ofResolve at h
  rcases hg : registerRecords (Symbols.ofProgram p)
    (Analyze.classes (Symbols.ofProgram p))
    { Store.ofPackages p.packages.keys p.rootPackage with log := log }
    with ⟨e | _, registered⟩ <;> rw [hg] at h
  · cases h
  have hsettled :=
    (o.settling_upholds hD config).after (hregistered registered hg)
  dsimp only at h
  rcases hr : o.settling config registered with ⟨e | ⟨surface, failures⟩, s⟩ <;>
    rw [hr] at h hsettled
  · cases h
  · dsimp only at h hsettled
    rcases hb : o.building surface failures s with ⟨e | r', s'⟩ <;> rw [hb] at h
    · cases h
    · cases h
      exact ⟨surface, s, hsettled, o.building_built surface failures hb⟩

/-- The same, if the store with which an analysis begins has the property. -/
theorem answer_upheld (o : Order p) {config : Config} {log : Log}
    {r : AnalysisResult}
    (hstart : ({ Store.ofPackages p.packages.keys p.rootPackage with
      log := log } : Store).All D)
    (h : o.answer config log = .ok r) :
    ∃ surface s, s.All D ∧
    Built (classify (Symbols.ofProgram p) surface s) r := by
  have hclasses : ∀ c ∈ Analyze.classes (Symbols.ofProgram p),
      (Symbols.ofProgram p).Declares c :=
    fun c hc => declares_classes (Symbols.keyed_ofProgram p) hc
  refine o.answer_settled hD (fun registered hrun => ?_) h
  have hregistered := (hD.registerRecords_upholds hclasses).after hstart
  rwa [hrun] at hregistered

end Upheld

end Order

end BridgeBindings
