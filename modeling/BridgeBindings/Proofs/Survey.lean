import BridgeBindings.Proofs.Charges

/-!
# An analysis from its failures to its result

The analysis is taken apart where all its failures are known. Up to there it
keeps the ledger: each failure has been charged for a reason, and a package
without one has all its records resolved. From there on nothing is resolved any
more, so the result says the same as the ledger: a package that failed is among
the failures, and one that did not has been built, unless building stops.

Nothing of this depends on the order in which packages and classes are taken, so
the analysis is looked at along any order; the program's own is the sorted one.
-/

namespace BridgeBindings

open Syntax Analyze

namespace Order

variable {p : Program}

/-- The analysis as far as its failures, along an order. -/
def surveying (o : Order p) (config : Config) :
    Analyze (Surface × Table TypeFault) := do
  let failures ← o.resolving
  let (surface, scanned) ←
      ofResolve (scanSurface (Symbols.ofProgram p) config p.entryFile)
  let failures :=
    scanned.entries.foldl
      (fun fs (package, f) => chargeLater fs package f) failures
  let failures ← o.packages.foldlM
      (finishPackage (Symbols.ofProgram p)) failures
  return (surface, failures)

/-- The analysis from its failures on. -/
def building (o : Order p) (surface : Surface) (failures : Table TypeFault) :
    Analyze AnalysisResult := do
  modify (classify (Symbols.ofProgram p) surface)
  let start : AnalysisResult :=
    { root := p.root, rootPackage := p.rootPackage, surface }
  o.packages.foldlM (buildPackage failures) start

/-- The analysis along an order, from the first class to the packages. -/
def analysis (o : Order p) (config : Config) : Analyze AnalysisResult := do
  let (surface, failures) ← o.surveying config
  o.building surface failures

/-- What an analysis along an order comes to. -/
def answer (o : Order p) (config : Config) (log : Log) :
    Except Fault AnalysisResult :=
  (o.analysis config { Store.ofPackages p.packages.keys p.rootPackage with
    log := log }).1

theorem sorted_answer (config : Config) (p : Program) (log : Log) :
    (sorted p).answer config log = Analysis.answer config p log := by
  have hprogram : Analyze.program config p = (sorted p).analysis config := by
    unfold Analyze.program analysis surveying resolving building sorted
    simp only [bind_assoc, pure_bind]
  unfold answer Analysis.answer
  rw [hprogram]

end Order

/-! ## The ledger, stage by stage -/

/-- What is known of the failures when some packages (`done`) have had their
turn: each has its reason, and the records of all other packages are settled. -/
structure Surveyed (t : Symbols) (bound : ProgramClass → Prop)
    (failures : Table TypeFault) (done : List String) (s : Store) : Prop where
  charged : Charged t bound failures
  settled : ∀ package ∈ done, failures.get? package = none → ∀ c ∈ records t,
    c.package = package → Settled c s

theorem Surveyed.more {t : Symbols} {bound : ProgramClass → Prop}
    {failures failures' : Table TypeFault} {done : List String} {s : Store}
    (h : Surveyed t bound failures done s)
    (hcharged : Charged t bound failures')
    (hextends : Extends failures failures') :
    Surveyed t bound failures' done s :=
  ⟨hcharged, fun package hp hnone =>
    h.settled package hp (hextends package hnone)⟩

section Stages

variable {t : Symbols} {visited left bound : ProgramClass → Prop}
  {E : Fault → Prop} {failures : Table TypeFault} {done : List String}

theorem stable_surveyed :
    (lasting t left).Stable (Surveyed t bound failures done) :=
  fun hl h => ⟨h.charged, fun package hp hnone c hc he =>
    (h.settled package hp hnone c hc he).lasts hl⟩

/-- A struct that waits belongs to a class of its package, and one
that may be left. -/
theorem waiting_left {s : Store} (hs : (lasting t left).holds s)
    {package n : String} (hn : n ∈ (s.draft package).pending) {st : Struct}
    (hst : (s.draft package).get? n = some st) :
    ∃ c, t.Declares c ∧ left c ∧ c.key = ⟨package, n⟩ ∧ st.module = c.module ∧
    st.name = c.name ∧
      ¬s.IsResolved c.key := by
  have hwaits : ¬s.IsResolved ⟨package, n⟩ := by
    have hunresolved := (List.mem_filter.mp (mem_sortedSet.mp hn)).2
    intro hres
    unfold Draft.isResolved at hunresolved
    rw [List.contains_iff_mem.mpr hres] at hunresolved
    cases hunresolved
  obtain ⟨c, hc, hkey, hmodule, hname, hstate⟩ := hs.1.home ⟨package, n⟩ st hst
  refine ⟨c, hc, ?_, hkey, hmodule, hname, hkey ▸ hwaits⟩
  rcases hstate with hres | hmark | hl
  · exact absurd hres hwaits
  · rw [hs.2] at hmark
    exact absurd hmark List.not_mem_nil
  · exact hl

/-- The classes that are resolved at the end for a package are its own. -/
theorem waiting_classes {s : Store} (hs : (lasting t left).holds s)
    {package : String} {c : ProgramClass}
    (hc : c ∈ ((s.draft package).pending.filterMap
      (s.draft package).get?).filterMap (classOfStruct? t)) :
    t.Declares c ∧ left c ∧ c.package = package := by
  obtain ⟨st, hst, hclass⟩ := List.mem_filterMap.mp hc
  obtain ⟨n, hn, hget⟩ := List.mem_filterMap.mp hst
  obtain ⟨d, hd, hl, hkey, hmodule, hname, -⟩ := waiting_left hs hn hget
  have hsame : classOfStruct? t st = some d := by
    unfold classOfStruct?
    rw [hmodule, hname, show t.scope? d.module = some d.scope from hd.inTree,
      Option.bind_some, hd.decl]
    rfl
  rw [hsame] at hclass
  cases hclass
  exact ⟨hd, hl, congrArg StructKey.package hkey⟩

variable (hk : t.Keyed) (hvisits : t.Visits visited left)
  (hbroken : ∀ package item b, t.Starts bound package item →
    t.Illegible item b → E (.broken b))

include hk hvisits hbroken

omit hbroken in
/-- Resolving the classes of one package: all of them come through and are
settled, or one stops, and the package is charged with what it stops at. -/
theorem resolvePackage_lasts {J : Store → Prop}
    (hstable : (lasting t left).Stable J) {classes : List ProgramClass}
    {package : String} (hturn : ∀ c ∈ classes.filter (·.package = package),
      t.Declares c ∧ visited c)
    (hlegible : ∀ c ∈ classes.filter (·.package = package), ∀ b,
      t.Illegible (.cls c) b → E (.broken b)) :
    Keeps (lasting t left) E J (resolvePackage t classes failures package)
      fun failures' s => J s ∧
        (failures' = failures ∧
            (∀ c ∈ classes.filter (·.package = package), Settled c s) ∨
          ∃ c ∈ classes.filter (·.package = package), ∃ f,
            t.Blames (.cls c) f ∧ failures' = charge failures package f) := by
  have hresolve := ((resolveAll_lasts hk hvisits hturn).caught (fun _ h => h)
    fun ⟨_, _, h⟩ => h).analyzing fun b ⟨c, hc, hb⟩ => hlegible c hc b hb
  unfold resolvePackage
  refine ((hresolve.carry hstable).pre fun _ _ h => ⟨trivial, h⟩).bind
    fun answer => ?_
  cases answer with
  | ok _ => exact Keeps.pure fun _ _ h => ⟨h.2, .inl ⟨rfl, h.1⟩⟩
  | error f =>
      refine ((((note_lasts _).stop fun _ he => he.elim).carry (p := fun s =>
        StopsAmong t (classes.filter (·.package = package)) (.fault f) ∧ J s)
          fun hl h => ⟨h.1, hstable hl h.2⟩).pre
            fun _ _ h => ⟨trivial, h⟩).bind fun _ => Keeps.pure fun s _ h => ?_
      obtain ⟨-, ⟨c, hc, hblames⟩, hJ⟩ := h
      exact ⟨hJ, .inr ⟨c, hc, f, hblames, rfl⟩⟩

theorem resolvePackage_surveyed {classes : List ProgramClass}
    (hclasses : ∀ c, c ∈ classes ↔ c ∈ records t)
    (hrecords : ∀ c ∈ records t, visited c) (package : String) :
    Keeps (lasting t left) E (Surveyed t bound failures done)
      (resolvePackage t classes failures package)
      fun failures => Surveyed t bound failures (done ++ [package]) := by
  have hturn : ∀ c ∈ classes.filter (·.package = package), t.Declares c ∧
      visited c := by
    intro c hc
    have hrecord := (hclasses c).mp (List.mem_filter.mp hc).1
    exact ⟨declares_records hk hrecord, hrecords c hrecord⟩
  refine (resolvePackage_lasts hk hvisits stable_surveyed hturn
    fun c hc b hb => hbroken _ _ b (.cls (hturn c hc).1) hb).post ?_
  rintro _ s - ⟨hsurveyed, ⟨rfl, hsettled⟩ | ⟨c, hc, f, hblames, rfl⟩⟩
  · refine ⟨hsurveyed.charged, fun q hq hnone c hc he => ?_⟩
    rcases List.mem_append.mp hq with hq | hq
    · exact hsurveyed.settled q hq hnone c hc he
    · refine hsettled c (List.mem_filter.mpr ⟨(hclasses c).mpr hc, ?_⟩)
      rw [decide_eq_true_iff, he, List.mem_singleton.mp hq]
  · have hstarts : t.Starts bound package (.cls c) := by
      have hpackage := (List.mem_filter.mp hc).2
      rw [decide_eq_true_iff] at hpackage
      rw [← hpackage]
      exact .cls (hturn c hc).1
    obtain ⟨hcharged, hextends, hfailed⟩ :=
      hsurveyed.charged.charge hstarts hblames
    refine ⟨hcharged, fun q hq hnone => ?_⟩
    rcases List.mem_append.mp hq with hq | hq
    · exact hsurveyed.settled q hq (hextends q hnone)
    · rw [List.mem_singleton.mp hq] at hnone
      exact absurd hnone hfailed

theorem finishPackage_surveyed (hleft : ∀ c, left c → visited c)
    (package : String) :
    Keeps (lasting t left) E (Surveyed t bound failures done)
      (finishPackage t failures package) fun failures =>
        Surveyed t bound failures done := by
  unfold finishPackage
  refine .ite (fun _ => Keeps.pure fun _ _ h => h) fun _ =>
    Keeps.read.bind fun seen => ?_
  rintro s hs ⟨hsurveyed, rfl⟩
  have hturn :
      ∀ c ∈ ((s.draft package).pending.filterMap
        (s.draft package).get?).filterMap
      (classOfStruct? t), t.Declares c ∧ visited c := fun c hc =>
    ⟨(waiting_classes hs hc).1, hleft c (waiting_classes hs hc).2.1⟩
  have hresolve := ((resolveAll_lasts hk hvisits hturn).caught (fun _ h => h)
    fun ⟨_, _, h⟩ => h).analyzing fun b ⟨c, hc, hb⟩ =>
    hbroken _ _ b (.cls (hturn c hc).1) hb
  refine (((hresolve.carry stable_surveyed).pre fun _ _ h => ⟨trivial, h⟩).bind
    fun answer => ?_) s hs hsurveyed
  cases answer with
  | ok _ => exact Keeps.pure fun _ _ h => h.2
  | error f =>
      refine Keeps.pure fun s' _ h => ?_
      obtain ⟨⟨c, hc, hblames⟩, hsurveyed'⟩ := h
      obtain ⟨hdeclared, -, hpackage⟩ := waiting_classes hs hc
      refine hsurveyed'.more (hsurveyed'.charged.insert ?_) extends_insert
      rw [← hpackage]
      exact (charges_both (.cls hdeclared) hblames).1

omit hk hvisits hbroken in
/-- The failures of a scan are charged one after the other. -/
theorem scanned_surveyed {scanned : Table TypeFault}
    (hs : Scanned t bound scanned) {s : Store}
    (h : Surveyed t bound failures done s) :
    Surveyed t bound (scanned.entries.foldl
      (fun fs (package, f) => chargeLater fs package f) failures) done s := by
  refine List.foldlRecOn (motive := fun fs => Surveyed t bound fs done s) _ _ h
    fun fs hfs x hx => ?_
  obtain ⟨item, hstarts, hblames⟩ := hs x hx
  obtain ⟨hcharged, hextends⟩ := hfs.charged.chargeLater hstarts hblames
  exact hfs.more hcharged hextends

end Stages

section Whole

variable {p : Program} {visited left : ProgramClass → Prop} {E : Fault → Prop}
  (hvisits : (Symbols.ofProgram p).Visits visited left)
  (hleft : ∀ c, left c → visited c)
  (hrecords : ∀ c ∈ records (Symbols.ofProgram p), left c)

include hvisits hleft hrecords

/-- Registering, and resolving package by package. -/
theorem resolving_surveyed (o : Order p) (bound : ProgramClass → Prop)
    (hrecord : ∀ c b, (Symbols.ofProgram p).Declares c →
      (Symbols.ofProgram p).breakdown? c = some b → E (.broken b))
    (hbroken : ∀ package item b,
      (Symbols.ofProgram p).Starts bound package item →
      (Symbols.ofProgram p).Illegible item b → E (.broken b)) :
    Keeps (lasting (Symbols.ofProgram p) left) E Always
      o.resolving fun failures =>
      Surveyed (Symbols.ofProgram p) bound failures o.packages := by
  have hk := Symbols.keyed_ofProgram p
  unfold Order.resolving
  have hfirst : Keeps (lasting (Symbols.ofProgram p) left) E Always
      (ofResolve (registerRecords (Symbols.ofProgram p)
        (classes (Symbols.ofProgram p))))
      fun _ _ => True :=
    (registerRecords_lasts fun c hc => ⟨declares_classes hk hc, fun hrecord =>
      hrecords c (List.mem_filter.mpr ⟨hc, hrecord⟩)⟩).analyzing
        fun b ⟨c, hc, hb⟩ => hrecord c b (declares_classes hk hc) hb
  refine hfirst.bind fun _ => ?_
  refine (Keeps.foldlM_done
    (J := fun done failures => Surveyed (Symbols.ofProgram p) bound
    failures done) (fun done package _ failures => ?_) [] .empty).pre
      fun _ _ _ => ⟨charged_empty, fun q hq => absurd hq List.not_mem_nil⟩
  exact resolvePackage_surveyed hk hvisits hbroken
    (fun c => o.classes_perm.mem_iff)
    (fun c hc => hleft c (hrecords c hc)) package

/-- Only what cannot be told stops an analysis before all its
failures are known. -/
theorem surveying_surveyed (o : Order p) (config : Config)
    (huntold : ∀ b, (Symbols.ofProgram p).Untold config p.entryFile b →
      E (.broken b)) :
    Keeps (lasting (Symbols.ofProgram p) left) E Always
      (o.surveying config) fun found s =>
      Surveyed (Symbols.ofProgram p)
        ((Symbols.ofProgram p).Binds config p.entryFile) found.2
        p.packages.keys s := by
  have hk := Symbols.keyed_ofProgram p
  have hbroken : ∀ package item b, (Symbols.ofProgram p).Starts
      ((Symbols.ofProgram p).Binds config p.entryFile) package item →
        (Symbols.ofProgram p).Illegible item b → E (.broken b) :=
    fun _ _ b hstarts hb => huntold b (.part hstarts hb)
  unfold Order.surveying
  refine (resolving_surveyed hvisits hleft hrecords o _
    (fun _ b hc hb => huntold b (.record hc hb)) hbroken).bind fun failures =>
    ?_
  refine ((((scanSurface_lasts hk hvisits config p.entryFile).analyzing
    huntold).carry stable_surveyed).pre fun _ _ h => ⟨trivial, h⟩).bind
      fun found => ?_
  obtain ⟨surface, scanned⟩ := found
  dsimp only
  refine ((Keeps.foldlM (J := fun failures => Surveyed (Symbols.ofProgram p)
    ((Symbols.ofProgram p).Binds config p.entryFile) failures o.packages)
      (fun failures package _ =>
        finishPackage_surveyed hk hvisits hbroken hleft package) _).pre
        fun _ _ h => scanned_surveyed h.1 h.2).bind fun failures =>
        Keeps.pure fun s _ h => ?_
  exact ⟨h.charged, fun q hq => h.settled q (o.packages_perm.mem_iff.mpr hq)⟩

end Whole

/-! ## The result -/

/-- A result that says of some packages what the ledger says, and of no others
anything. -/
structure Placed (failures : Table TypeFault) (done : List String)
    (r : AnalysisResult) : Prop where
  failed : ∀ package, r.failures.get? package =
    if package ∈ done then failures.get? package else none
  built : ∀ package, r.packages.contains package = true ↔
    package ∈ done ∧ failures.get? package = none

theorem buildPackage_placed {E : Fault → Prop} {failures : Table TypeFault}
    {last : Store} {done : List String} {package : String} (r : AnalysisResult)
    (hbuild : failures.get? package = none →
      (last.draft package).pending = [] ∨ ∀ f, E f) :
    Keeps .free E (fun s => s.drafts = last.drafts ∧ Placed failures done r)
      (buildPackage failures r package)
      fun r s => s.drafts = last.drafts ∧
      Placed failures (done ++ [package]) r := by
  have hmem : ∀ q, q ∈ done ++ [package] ↔ q ∈ done ∨ q = package := by
    intro q
    rw [List.mem_append, List.mem_singleton]
  unfold buildPackage
  split
  · next f hf =>
      refine Keeps.pure fun s _ h => ⟨h.1, fun q => ?_, fun q => ?_⟩
      · show (r.failures.insert package f).get? q = _
        rw [Table.get?_insert, h.2.failed]
        by_cases hq : q = package
        · rw [if_pos hq, if_pos ((hmem q).mpr (.inr hq)), hq, hf]
        · rw [if_neg hq]
          simp only [hmem, hq, or_false]
      · show r.packages.contains q = true ↔ _
        rw [h.2.built, hmem]
        refine ⟨fun hp => ⟨.inl hp.1, hp.2⟩, fun hp =>
          ⟨hp.1.resolve_right fun hq => ?_, hp.2⟩⟩
        rw [hq, hf] at hp
        cases hp.2
  · next hnone =>
      refine Keeps.read.bind fun seen => ?_
      rintro s - ⟨⟨hdrafts, hplaced⟩, rfl⟩
      have hdraft : s.draft package = last.draft package := by
        unfold Store.draft
        rw [hdrafts]
      rw [Building.build_open, hdraft]
      cases hpending : (last.draft package).pending with
      | cons n names =>
          rw [if_neg (List.cons_ne_nil n names)]
          refine Keeps.throw (P := Always) ?_ s trivial trivial
          refine (hbuild hnone).elim (fun he => ?_) fun h => h _
          rw [hpending] at he
          cases he
      | nil =>
          rw [if_pos rfl]
          refine ⟨trivial, trivial, hdrafts, fun q => ?_, fun q => ?_⟩
          · show r.failures.get? q = _
            rw [hplaced.failed]
            by_cases hq : q = package
            · rw [if_pos ((hmem q).mpr (.inr hq)), hq, hnone, ite_self]
            · simp only [hmem, hq, or_false]
          · show (r.packages.insert package _).contains q = true ↔ _
            rw [Table.contains_iff, Table.get?_insert, hmem]
            by_cases hq : q = package
            · rw [if_pos hq, hq]
              exact ⟨fun _ => ⟨.inr rfl, hnone⟩, fun _ => ⟨_, rfl⟩⟩
            · rw [if_neg hq, ← Table.contains_iff, hplaced.built]
              simp only [hq, or_false]

/-- Building places each package, and stops only on placeholders. -/
theorem building_placed {p : Program} {E : Fault → Prop} (o : Order p)
    (surface : Surface) (failures : Table TypeFault) (s : Store)
    (hbuild : ∀ package ∈ p.packages.keys, failures.get? package = none →
      (s.draft package).pending = [] ∨ ∀ f, E f) :
    Ends E (fun r _ => Placed failures p.packages.keys r)
      (o.building surface failures s) := by
  have hclassify := marked_classify (Symbols.ofProgram p) surface s
  have hstart : Placed failures []
      { root := p.root, rootPackage := p.rootPackage,
        surface : AnalysisResult } :=
    { failed := fun _ => rfl
      built := fun q =>
        ⟨fun h => (by cases h), fun h => absurd h.1 List.not_mem_nil⟩ }
  -- classifying comes before and only marks structs, so that nothing waits then
  -- that did not wait at the end of the survey
  have hplaces :
      Keeps .free E
        (fun s' => s'.drafts =
            (classify (Symbols.ofProgram p) surface s).drafts ∧
          Placed failures []
            { root := p.root, rootPackage := p.rootPackage, surface })
      (o.packages.foldlM (buildPackage failures)
        { root := p.root, rootPackage := p.rootPackage, surface }) fun r s' =>
        s'.drafts = (classify (Symbols.ofProgram p) surface s).drafts ∧
          Placed failures ([] ++ o.packages) r := by
    refine Keeps.foldlM_done (J := fun done r s' =>
      s'.drafts = (classify (Symbols.ofProgram p) surface s).drafts ∧
        Placed failures done r)
          (fun done package hp r => buildPackage_placed r fun hnone => ?_) [] _
    rw [(hclassify package).pending]
    exact hbuild package (o.packages_perm.mem_iff.mp hp) hnone
  obtain ⟨-, -, hends⟩ :=
    hplaces (classify (Symbols.ofProgram p) surface s) trivial ⟨rfl, hstart⟩
  have hrun : o.building surface failures s =
      o.packages.foldlM (buildPackage failures)
        { root := p.root, rootPackage := p.rootPackage, surface }
        (classify (Symbols.ofProgram p) surface s) := rfl
  rw [hrun]
  rcases hr : o.packages.foldlM (buildPackage failures)
    { root := p.root, rootPackage := p.rootPackage, surface }
    (classify (Symbols.ofProgram p) surface s) with ⟨e | r, s'⟩ <;>
    rw [hr] at hends
  · exact hends
  · refine ⟨fun q => ?_, fun q => ?_⟩
    · rw [hends.2.failed, List.nil_append]
      simp only [o.packages_perm.mem_iff]
    · rw [hends.2.built, List.nil_append, o.packages_perm.mem_iff]

/-- An analysis along any order stops nowhere but at placeholders and at what
cannot be told, and its result says what has been charged. -/
theorem answer_placed {p : Program} {visited left : ProgramClass → Prop}
    {E : Fault → Prop} (hvisits : (Symbols.ofProgram p).Visits visited left)
    (hleft : ∀ c, left c → visited c)
    (hrecords : ∀ c ∈ records (Symbols.ofProgram p), left c) (o : Order p)
    (config : Config) (log : Log)
    (huntold : ∀ b, (Symbols.ofProgram p).Untold config p.entryFile b →
      E (.broken b))
    (hbuild : ∀ s failures, (lasting (Symbols.ofProgram p) left).holds s →
      Surveyed (Symbols.ofProgram p)
        ((Symbols.ofProgram p).Binds config p.entryFile) failures
        p.packages.keys s →
      ∀ package ∈ p.packages.keys, failures.get? package = none →
        (s.draft package).pending = [] ∨ ∀ f, E f) :
    (∀ f, o.answer config log = .error f → E f) ∧
      ∀ r, o.answer config log = .ok r → ∃ failures,
        Charged (Symbols.ofProgram p)
          ((Symbols.ofProgram p).Binds config p.entryFile) failures ∧
        Placed failures p.packages.keys r := by
  obtain ⟨-, hs, hsurveyed⟩ :=
    surveying_surveyed (E := E) hvisits hleft hrecords o config huntold
    { Store.ofPackages p.packages.keys p.rootPackage with log := log }
    ⟨coherent_ofPackages _ _ _ _ log, rfl⟩ trivial
  unfold Order.answer Order.analysis
  rw [run_bind]
  rcases hr : o.surveying config
    { Store.ofPackages p.packages.keys p.rootPackage with log := log }
    with ⟨e | found, s⟩ <;> rw [hr] at hs hsurveyed
  · refine ⟨fun f hf => ?_, fun r hf => ?_⟩
    · cases hf
      exact hsurveyed
    · cases hf
  · obtain ⟨surface, failures⟩ := found
    have hplaced :=
      building_placed o surface failures s (hbuild s failures hs hsurveyed)
    dsimp only
    rcases hr' : o.building surface failures s with ⟨e | r, s'⟩ <;>
      rw [hr'] at hplaced
    · refine ⟨fun f hf => ?_, fun r hf => ?_⟩
      · cases hf
        exact hplaced
      · cases hf
    · refine ⟨fun f hf => ?_, fun r hf => ?_⟩
      · cases hf
      · cases hf
        exact ⟨failures, hsurveyed.charged, hplaced⟩

end BridgeBindings
