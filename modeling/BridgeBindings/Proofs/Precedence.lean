import BridgeBindings.Proofs.Selection
import BridgeBindings.Proofs.Upkeep

/-!
# Which declaration a struct is taken from

All record classes are registered before anything else happens, and the first
one to ask for a name keeps it. From then on a struct may get its fields, but
neither its module nor its comments change: that is so of every stage of the
analysis, whatever fails, up to the packages that are built in the end.

The record classes are registered scope by scope, and the scopes stand in the
order of their modules, which is not that of their files: a file's module is
its way without the ending, without `__init__` and with underscores for dashes.
So of several declarations of one struct the one counts whose module comes
first by name, among those whose files have kept their scopes, and it may be
that of any file.
-/

namespace BridgeBindings

open Syntax Analyze

/-! ## What is never taken back -/

/-- A draft has a struct of this name for the same module and with the
same comments. -/
def Draft.Recalls (d : Draft) (name : String) (st : Struct) : Prop :=
  ∃ st', d.get? name = some st' ∧ st'.module = st.module ∧
    st'.comments = st.comments

theorem Draft.Recalls.edit {d : Draft} {name : String} {st : Struct}
    (h : d.Recalls name st) (e : Edit) : (d.edit e).Recalls name st := by
  obtain ⟨st', hst', hmodule, hcomments⟩ := h
  have hgrows {d' : Draft} (hg : d.Grows d') : d'.Recalls name st := by
    obtain ⟨st'', hst'', hmodule', hcomments'⟩ := hg.structs name st' hst'
    exact ⟨st'', hst'', hmodule'.trans hmodule, hcomments'.trans hcomments⟩
  cases e with
  | register name module comments =>
      exact hgrows (d.grows_register name module comments)
  | complete name fields => exact hgrows (d.grows_complete name fields)
  | addReference package => exact hgrows (d.grows_addReference package)
  | _ => exact ⟨st', hst', hmodule, hcomments⟩

theorem upheld_once (t : Symbols) : t.Upheld fun _ d => d.structs.keys.Nodup :=
  fun _ _ e _ h => Draft.once_edit h e

theorem upheld_recalls (t : Symbols) (k : StructKey) (st : Struct) :
    t.Upheld fun p d => d.structs.keys.Nodup ∧
    (p = k.package → d.Recalls k.name st) :=
  fun _ _ e _ h => ⟨Draft.once_edit h.1 e, fun hp => (h.2 hp).edit e⟩

namespace Order

variable {p : Program}

/-- A package that is built has what was registered for it. -/
theorem answer_recalls (o : Order p) (config : Config) (log : Log)
    {registered : Store}
    (hregister : registerRecords (Symbols.ofProgram p)
      (Analyze.classes (Symbols.ofProgram p))
      { Store.ofPackages p.packages.keys p.rootPackage with log := log } =
      (.ok (), registered))
    {r : AnalysisResult} (h : o.answer config log = .ok r) {k : StructKey}
    {package : Package}
    (hpackage : r.packages.get? k.package = some package) {st : Struct}
    (hst : registered.get? k = some st) :
    ∃ st', package.structs.get? k.name = some st' ∧
      st'.module = st.module ∧ st'.comments = st.comments := by
  have hclasses : ∀ c ∈ Analyze.classes (Symbols.ofProgram p),
      (Symbols.ofProgram p).Declares c :=
    fun c hc => declares_classes (Symbols.keyed_ofProgram p) hc
  -- a struct that is registered is never registered again, and freezing only
  -- sorts
  have honce := ((upheld_once _).registerRecords_upholds hclasses).after
    (.ofPackages (fun _ _ => Table.nodup_empty) p.packages.keys
      p.rootPackage log)
  rw [hregister] at honce
  have hregistered : registered.All fun p d =>
      d.structs.keys.Nodup ∧ (p = k.package → d.Recalls k.name st) := by
    refine fun q => ⟨honce q, ?_⟩
    rintro rfl
    exact ⟨st, hst, rfl, rfl⟩
  obtain ⟨surface, s, hs, hbuilt⟩ := o.answer_settled (upheld_recalls _ k st)
    (fun registered' hrun =>
      by cases hregister.symm.trans hrun; exact hregistered) h
  obtain ⟨honce, hrecalls⟩ := hs k.package
  obtain ⟨st', hst', hsame⟩ := hrecalls rfl
  obtain ⟨-, rfl⟩ := hbuilt k.package package hpackage
  have hmarked := marked_classify (Symbols.ofProgram p) surface s k.package
  refine ⟨st', ?_, hsame⟩
  rw [← hmarked.structs] at honce
  refine (Table.get?_sorted honce k.name).trans ?_
  rw [hmarked.structs]
  exact hst'

end Order

/-! ## Who registers first -/

/-- What a struct keeps of the class that it was registered for. -/
def Struct.origin (st : Struct) : String × List CodeText :=
  (st.module, st.comments)

/-- What a struct keeps of a class that it is registered for. -/
def ProgramClass.origin (c : ProgramClass) : String × List CodeText :=
  (c.module, c.doc)

theorem structOf_origin (s : Store) (c : ProgramClass) :
    (s.structOf c).origin =
    ((s.get? c.key).map Struct.origin).getD c.origin := by
  unfold Store.structOf
  rw [show (s.draft c.package).get? c.name = s.get? c.key from rfl]
  cases s.get? c.key <;> rfl

/-- What registering one class comes to: it stops if it cannot be told to be a
record, and a record that is the first of its name counts. -/
theorem registerRecord_run (t : Symbols) (c : ProgramClass) (s : Store) :
    (∃ b, t.breakdown? c = some b ∧
        (do Resolve.expect (t.breakdown? c)
            if t.isRecord c then
              discard (Resolve.register c) : Resolve Unit) s =
          (.error (.broken b), s)) ∨
      t.breakdown? c = none ∧ ∃ s',
        (do Resolve.expect (t.breakdown? c)
            if t.isRecord c then discard (Resolve.register c) : Resolve Unit)
            s = (.ok (), s') ∧
          ∀ k, (s'.get? k).map Struct.origin = ((s.get? k).map Struct.origin).or
            ((([c].filter t.isRecord).find? fun c => c.key = k).map
              ProgramClass.origin) := by
  cases t.breakdown? c with
  | some b => exact .inl ⟨b, rfl, rfl⟩
  | none =>
      refine .inr ⟨rfl, ?_⟩
      cases hrecord : t.isRecord c with
      | false =>
          refine ⟨s, rfl, fun k => ?_⟩
          rw [List.filter_cons_of_neg
            (by rw [hrecord]; exact Bool.false_ne_true), List.filter_nil,
            List.find?_nil, Option.map_none, Option.or_none]
      | true =>
          refine ⟨s.registered c, ?_, fun k => ?_⟩
          · show discard (Resolve.register c) s = _
            rw [discard_run, register_run]
          · rw [List.filter_cons_of_pos hrecord, List.filter_nil,
              Store.get?_registered, List.find?_cons]
            by_cases hkey : k = c.key
            · subst hkey
              rw [if_pos rfl, Option.map_some, structOf_origin,
                decide_eq_true rfl]
              cases s.get? c.key <;> rfl
            · rw [if_neg hkey, decide_eq_false (Ne.symm hkey), List.find?_nil,
                Option.map_none, Option.or_none]

/-- Registering stops only at a class that cannot be told to be a record, and
the first record of a name is the one that counts. -/
theorem registerRecords_run (t : Symbols)
    (classes : List ProgramClass) (s : Store) :
    (∃ c ∈ classes, ∃ b, t.breakdown? c = some b ∧
        (registerRecords t classes s).1 = .error (.broken b)) ∨
      (∀ c ∈ classes, t.breakdown? c = none) ∧
        ∃ s', registerRecords t classes s = (.ok (), s') ∧
        ∀ k, (s'.get? k).map Struct.origin =
          ((s.get? k).map Struct.origin).or
            (((classes.filter t.isRecord).find? fun c => c.key = k).map
              ProgramClass.origin) := by
  induction classes generalizing s with
  | nil =>
      refine .inr ⟨List.forall_mem_nil _, s, rfl, fun k => ?_⟩
      rw [List.filter_nil, List.find?_nil, Option.map_none, Option.or_none]
  | cons c classes ih =>
      have hrun : registerRecords t (c :: classes) s =
          ((do Resolve.expect (t.breakdown? c)
               if t.isRecord c then
                 discard (Resolve.register c) : Resolve Unit) >>=
            fun _ => registerRecords t classes) s := rfl
      rw [hrun, run_bind]
      rcases registerRecord_run t c s with ⟨b, hb, hstop⟩ |
        ⟨hb, s₁, hfirst, horigin⟩
      · rw [hstop]
        exact .inl ⟨c, List.mem_cons_self, b, hb, rfl⟩
      · rw [hfirst]
        rcases ih s₁ with ⟨d, hd, b, hbd, hstop⟩ | ⟨htold, s', hrest, horigins⟩
        · exact .inl ⟨d, List.mem_cons_of_mem c hd, b, hbd, hstop⟩
        · refine .inr ⟨List.forall_mem_cons.mpr ⟨hb, htold⟩, s',
            hrest, fun k => ?_⟩
          have hsplit : (c :: classes).filter t.isRecord =
              [c].filter t.isRecord ++ classes.filter t.isRecord :=
            List.filter_append [c] classes
          rw [horigins, horigin, hsplit, List.find?_append, Option.map_or,
            Option.or_assoc]

theorem get?_ofPackages (names : List String) (rootPackage : String) (log : Log)
    (k : StructKey) :
    ({ Store.ofPackages names rootPackage with log := log } : Store).get? k =
    none := by
  obtain ⟨root, h⟩ := draft_ofPackages names rootPackage log k.package
  unfold Store.get?
  rw [h]
  rfl

/-! ## The order of the record classes -/

theorem Symbols.sortedScopes_increasing (p : Program) :
    (Symbols.ofProgram p).sortedScopes.Pairwise fun a b =>
      a.module < b.module := by
  have hk := Symbols.keyed_ofProgram p
  have hincreasing :=
    List.pairwise_map.mp (Table.increasing_sorted hk.scopesOnce)
  refine List.pairwise_map.mpr
    (hincreasing.imp_of_mem fun {a b} ha hb hlt => ?_)
  have hmodule : ∀ e ∈ (Symbols.ofProgram p).scopes.sorted,
      e.2.module = e.1 := by
    intro e he
    obtain ⟨f, -, hf, hscope⟩ := Symbols.source_of_scope
      (Table.get?_of_mem hk.scopesOnce (List.mem_mergeSort.mp he))
    rw [hf, hscope]
    rfl
  rwa [hmodule a ha, hmodule b hb]

theorem records_increasing (p : Program) :
    (records (Symbols.ofProgram p)).Pairwise fun c d =>
      c.module ≤ d.module := by
  have hmem {scope : Scope} {c : ProgramClass}
      (hc : c ∈ scope.classes.values.map fun c =>
      (⟨scope, c⟩ : ProgramClass)) : c.scope = scope := by
    obtain ⟨d, -, rfl⟩ := List.mem_map.mp hc
    rfl
  unfold records Analyze.classes
  refine List.Pairwise.filter _ ?_
  rw [List.pairwise_flatMap]
  refine ⟨fun scope _ => ?_, (Symbols.sortedScopes_increasing p).imp
    fun {a b} hlt c hc d hd => ?_⟩
  · refine List.pairwise_of_forall_mem_list fun c hc d hd => ?_
    unfold ProgramClass.module
    rw [hmem hc, hmem hd]
  · unfold ProgramClass.module
    rw [hmem hc, hmem hd]
    exact hlt.le

/-- The record class that registers a struct is the one whose
module comes first. -/
theorem find?_records (p : Program) (k : StructKey) (c : ProgramClass) :
    (records (Symbols.ofProgram p)).find? (fun c => c.key = k) = some c ↔
      (c ∈ records (Symbols.ofProgram p) ∧ c.key = k) ∧
        ∀ d ∈ records (Symbols.ofProgram p), d.key = k →
        c.module ≤ d.module := by
  have hleast :
      ∀ c, (records (Symbols.ofProgram p)).find? (fun c => c.key = k) = some c →
      (c ∈ records (Symbols.ofProgram p) ∧ c.key = k) ∧
        ∀ d ∈ records (Symbols.ofProgram p), d.key = k →
        c.module ≤ d.module := by
    intro c hc
    obtain ⟨hkey, before, after, hsplit, hbefore⟩ :=
      List.find?_eq_some_iff_append.mp hc
    have hincreasing := records_increasing p
    rw [hsplit] at hincreasing ⊢
    refine ⟨⟨by simp, of_decide_eq_true hkey⟩, fun d hd hdkey => ?_⟩
    rcases List.mem_append.mp hd with hd | hd
    · exact absurd hdkey (by simpa using hbefore d hd)
    · rcases List.mem_cons.mp hd with rfl | hd
      · exact le_refl _
      · exact (List.pairwise_cons.mp
          (List.pairwise_append.mp hincreasing).2.1).1 d hd
  refine ⟨hleast c, fun ⟨⟨hmem, hkey⟩, hfirst⟩ => ?_⟩
  have hk := Symbols.keyed_ofProgram p
  have hsome :
      ((records (Symbols.ofProgram p)).find? fun c =>
        c.key = k).isSome = true :=
    List.find?_isSome.mpr ⟨c, hmem, decide_eq_true hkey⟩
  obtain ⟨d, hd⟩ := Option.isSome_iff_exists.mp hsome
  obtain ⟨⟨hdmem, hdkey⟩, hdfirst⟩ := hleast d hd
  have hmodule : d.module = c.module :=
    le_antisymm (hdfirst c hmem hkey) (hfirst d hdmem hdkey)
  have hname : d.name = c.name :=
    congrArg StructKey.name (hdkey.trans hkey.symm)
  rw [hd, (declares_records hk hdmem).unique
    (declares_records hk hmem) hmodule hname]

/-! ## Declarations of one struct -/

/-- The record classes of one name that the files of a package declare,
file by file. -/
def Program.declarations (p : Program) (package : SourcePackage)
    (name : String) : List ProgramClass :=
  package.files.filterMap fun f =>
    (((Scope.ofSource f).classes.get? name).map fun decl =>
      (⟨Scope.ofSource f, decl⟩ : ProgramClass)).filter
        (Symbols.ofProgram p).isRecord

/-- The declaration whose module comes first by name, of those in scopes that
the program has. -/
structure Symbols.ComesFirst (t : Symbols) (declarations : List ProgramClass)
    (d : ProgramClass) : Prop where
  among : d ∈ declarations
  kept : t.Has d.scope
  first : ∀ e ∈ declarations, t.Has e.scope → d.module ≤ e.module

/-- The struct of this name is registered with this module and these comments,
and has them in every package that is built. -/
structure TakenFrom (files : FileTree) (config : Config) (p : Program)
    (k : StructKey) (module : String) (comments : List CodeText) : Prop where
  registered : ∃ st, p.registered.get? k = some st ∧ st.module = module ∧
    st.comments = comments
  built : ∀ r package, (analyze files config).1 = .ok r →
    r.packages.get? k.package = some package →
      ∃ st, package.structs.get? k.name = some st ∧ st.module = module ∧
      st.comments = comments

namespace Program

variable {files : FileTree} {config : Config} {p : Program} {log : Log}
  {q name : String} {package : SourcePackage} {c : ProgramClass}

/-- The files of a package are all those that are in it. -/
theorem mem_package_files (h : load files config = (.ok p, log))
    (hpackage : p.packages.get? q = some package) {f : Source} :
    f ∈ package.files ↔ f ∈ p.files ∧ f.package = q := by
  obtain ⟨sources, rfl, -⟩ := load_sources h
  rw [((grouped_addFiles sources).files q package hpackage).2, List.mem_filter,
    decide_eq_true_eq, (files_perm config sources).mem_iff]

theorem mem_declarations : c ∈ p.declarations package name ↔
    (∃ f ∈ package.files, c.scope = Scope.ofSource f) ∧
    c.scope.classes.get? name = some c.decl ∧
      (Symbols.ofProgram p).isRecord c = true := by
  unfold declarations
  rw [List.mem_filterMap]
  constructor
  · rintro ⟨f, hf, hc⟩
    obtain ⟨hmap, hrecord⟩ := Option.filter_eq_some_iff.mp hc
    obtain ⟨decl, hdecl, rfl⟩ := Option.map_eq_some_iff.mp hmap
    exact ⟨⟨f, hf, rfl⟩, hdecl, hrecord⟩
  · rintro ⟨⟨f, hf, hscope⟩, hdecl, hrecord⟩
    obtain ⟨scope, decl⟩ := c
    obtain rfl : scope = Scope.ofSource f := hscope
    exact ⟨f, hf, Option.filter_eq_some_iff.mpr
      ⟨Option.map_eq_some_iff.mpr ⟨decl, hdecl, rfl⟩, hrecord⟩⟩

/-- The declarations in scopes that the program has are the record classes that
ask for the name. -/
theorem kept_declarations (h : load files config = (.ok p, log))
    (hpackage : p.packages.get? q = some package) :
    c ∈ p.declarations package name ∧ (Symbols.ofProgram p).Has c.scope ↔
      c ∈ records (Symbols.ofProgram p) ∧ c.key = ⟨q, name⟩ := by
  have hk := Symbols.keyed_ofProgram p
  constructor
  · rintro ⟨hc, hkept⟩
    obtain ⟨⟨f, hf, hscope⟩, hdecl, hrecord⟩ := mem_declarations.mp hc
    have hname : c.name = name := hk.cls _ _ _ _ hkept hdecl
    have hdeclares : (Symbols.ofProgram p).Declares c :=
      ⟨hkept, by rw [hname]; exact hdecl⟩
    have hq : c.package = q := by
      unfold ProgramClass.package
      rw [hscope]
      exact ((mem_package_files h hpackage).mp hf).2
    exact ⟨mem_records hdeclares hrecord, by rw [← hq, ← hname]; rfl⟩
  · rintro ⟨hmem, hkey⟩
    have hdeclares := declares_records hk hmem
    obtain ⟨f, hf, -, hscope⟩ := Symbols.source_of_scope hdeclares.inTree
    have hname : c.name = name := congrArg StructKey.name hkey
    have hq : f.package = q := by
      have hpackage : c.package = q := congrArg StructKey.package hkey
      unfold ProgramClass.package at hpackage
      rwa [hscope] at hpackage
    exact ⟨mem_declarations.mpr
      ⟨⟨f, (mem_package_files h hpackage).mpr ⟨hf, hq⟩, hscope⟩,
      hname ▸ hdeclares.decl, isRecord_of_mem hmem⟩, hdeclares.inTree⟩

theorem find?_comesFirst (h : load files config = (.ok p, log))
    (hpackage : p.packages.get? q = some package) :
    (records (Symbols.ofProgram p)).find?
      (fun c => c.key = ⟨q, name⟩) = some c ↔
      (Symbols.ofProgram p).ComesFirst (p.declarations package name) c := by
  rw [find?_records, ← kept_declarations h hpackage]
  constructor
  · rintro ⟨⟨hc, hkept⟩, hfirst⟩
    refine ⟨hc, hkept, fun e he hkept' => ?_⟩
    obtain ⟨hmem, hkey⟩ := (kept_declarations h hpackage).mp ⟨he, hkept'⟩
    exact hfirst e hmem hkey
  · rintro ⟨hc, hkept, hfirst⟩
    refine ⟨⟨hc, hkept⟩, fun e hmem hkey => ?_⟩
    obtain ⟨he, hkept'⟩ := (kept_declarations h hpackage).mpr ⟨hmem, hkey⟩
    exact hfirst e he hkept'

/-- The leading declaration is the one that is registered, and that is built. -/
theorem registered_origin (h : load files config = (.ok p, log))
    (htells : p.Tells) (hpackage : p.packages.get? q = some package)
    {origin : String × List CodeText} :
    (p.registered.get? ⟨q, name⟩).map Struct.origin = some origin ↔
      ∃ d, (Symbols.ofProgram p).ComesFirst (p.declarations package name) d ∧
      d.origin = origin := by
  obtain ⟨c, hc, b, hb, -⟩ | ⟨-, s', hrun, horigin⟩ :=
    registerRecords_run (Symbols.ofProgram p)
      (Analyze.classes (Symbols.ofProgram p))
      (Store.ofPackages p.packages.keys p.rootPackage)
  · cases (htells c hc).symm.trans hb
  have hempty := get?_ofPackages p.packages.keys p.rootPackage [] ⟨q, name⟩
  unfold registered
  rw [hrun, horigin, show (Store.ofPackages p.packages.keys p.rootPackage).get?
    ⟨q, name⟩ = none from hempty, Option.map_none, Option.none_or,
    Option.map_eq_some_iff]
  exact exists_congr fun d => and_congr_left fun _ =>
    find?_comesFirst h hpackage

theorem taken_of_comesFirst (h : load files config = (.ok p, log))
    (htells : p.Tells) (hpackage : p.packages.get? q = some package)
    {d : ProgramClass}
    (hcomes : (Symbols.ofProgram p).ComesFirst
      (p.declarations package name) d) :
    TakenFrom files config p ⟨q, name⟩ d.module d.doc := by
  refine ⟨?_, fun r built hr hbuilt => ?_⟩
  · obtain ⟨st, hst, horigin⟩ := Option.map_eq_some_iff.mp
      ((registered_origin h htells hpackage).mpr ⟨d, hcomes, rfl⟩)
    exact ⟨st, hst, congrArg Prod.fst horigin, congrArg Prod.snd horigin⟩
  · obtain ⟨c, hc, b, hb, -⟩ | ⟨-, s', hrun, horigin⟩ := registerRecords_run
      (Symbols.ofProgram p) (Analyze.classes (Symbols.ofProgram p))
      { Store.ofPackages p.packages.keys p.rootPackage with log := log }
    · cases (htells c hc).symm.trans hb
    have hfirst : ((Analyze.classes (Symbols.ofProgram p)).filter
        (Symbols.ofProgram p).isRecord).find?
        (fun c => c.key = ⟨q, name⟩) = some d :=
      (find?_comesFirst h hpackage).mpr hcomes
    have hregistered : (s'.get? ⟨q, name⟩).map Struct.origin =
        some d.origin := by
      rw [horigin, get?_ofPackages, hfirst]
      rfl
    obtain ⟨st, hst, hsame⟩ := Option.map_eq_some_iff.mp hregistered
    have hanswer : (Order.sorted p).answer config log = .ok r := by
      rw [Order.sorted_answer]
      unfold analyze at hr
      rw [h] at hr
      exact hr
    obtain ⟨st', hst', hmodule, hcomments⟩ :=
      (Order.sorted p).answer_recalls config log hrun hanswer hbuilt hst
    exact ⟨st', hst', hmodule.trans (congrArg Prod.fst hsame),
      hcomments.trans (congrArg Prod.snd hsame)⟩

/-- Where a class cannot be told to be a record, the analysis has no result. -/
theorem breaks_of_untold (h : load files config = (.ok p, log))
    (hnot : ¬p.Tells) : ∃ b, (analyze files config).1 = .error (.broken b) := by
  obtain ⟨-, -, b, -, hstop⟩ | ⟨htold, -⟩ :=
    registerRecords_run (Symbols.ofProgram p)
      (Analyze.classes (Symbols.ofProgram p))
    { Store.ofPackages p.packages.keys p.rootPackage with log := log }
  · refine ⟨b, ?_⟩
    unfold analyze Analyze.program
    rw [h]
    dsimp only
    rw [run_bind]
    unfold ofResolve
    rcases hr : registerRecords (Symbols.ofProgram p)
      (Analyze.classes (Symbols.ofProgram p))
      { Store.ofPackages p.packages.keys p.rootPackage with log := log }
      with ⟨answer, s⟩
    rw [hr] at hstop
    obtain rfl : answer = .error (.broken b) := hstop
    rfl
  · exact absurd htold hnot

/-- Of several declarations of one struct the first is what it is taken from
exactly if the declaration that leads says the same, which is the one whose
module comes first by name; unless a class cannot be told to be a record, and
there is no result. -/
theorem first_declaration_iff (h : load files config = (.ok p, log))
    (hpackage : p.packages.get? q = some package) {rest : List ProgramClass}
    (hfirst : p.declarations package name = c :: rest) :
    (¬p.Tells ∧ ∃ b, (analyze files config).1 = .error (.broken b)) ∨
      (TakenFrom files config p ⟨q, name⟩ c.module c.doc ↔
        ∃ d, (Symbols.ofProgram p).ComesFirst (c :: rest) d ∧
          d.module = c.module ∧ d.doc = c.doc) := by
  by_cases htells : p.Tells
  · refine .inr ?_
    rw [← hfirst]
    constructor
    · rintro ⟨⟨st, hst, hmodule, hcomments⟩, -⟩
      have horigin : (p.registered.get? ⟨q, name⟩).map Struct.origin =
          some (c.module, c.doc) := by
        rw [hst, Option.map_some, Struct.origin, hmodule, hcomments]
      obtain ⟨d, hcomes, hsame⟩ :=
        (registered_origin h htells hpackage).mp horigin
      exact ⟨d, hcomes, congrArg Prod.fst hsame, congrArg Prod.snd hsame⟩
    · rintro ⟨d, hcomes, hmodule, hdoc⟩
      rw [← hmodule, ← hdoc]
      exact taken_of_comesFirst h htells hpackage hcomes
  · exact .inl ⟨htells, breaks_of_untold h htells⟩

end Program

namespace Sample

/-- Two files in the root directory that declare the same class. -/
def rivalTree (first second : String) : FileTree := ⟨.directory
  [(first, .file
    (Text.encodeUtf8 "# Old money.\nclass Money:\n    cents: int\n")),
    (second, .file
      (Text.encodeUtf8 "# New money.\nclass Money:\n    cents: int\n"))]⟩

def rivalSources (first second : String) : List Source :=
  (Program.readAll
    (fun path => Source.read (rivalTree first second) "/" path "main")
    ["/" ++ first, "/" ++ second]).1

/-- The classes of this name in some files that make up a program. -/
def rivals (sources : List Source) (name : String) : List ProgramClass :=
  sources.filterMap fun f =>
    (((Scope.ofSource f).classes.get? name).map fun decl =>
      (⟨Scope.ofSource f, decl⟩ : ProgramClass)).filter
        (⟨.ofList (sources.map fun s => (s.module, Scope.ofSource s))⟩ :
          Symbols).isRecord

/-- What is found out about the two files by reading them. -/
structure Rivals (first second module module' : String) : Prop where
  order : first ≤ second
  sources : ([[first], [second]].filter fun place =>
    Program.isSourceName (place.getLast?.getD "")).map (fun place =>
      Path.join "/" (Path.ofParts place)) = ["/" ++ first, "/" ++ second]
  read :
    (Program.readAll
      (fun path => Source.read (rivalTree first second) "/" path "main")
    ["/" ++ first, "/" ++ second]).2 = none
  places : (rivalSources first second).map
    (fun s => (s.path, s.module, s.package)) =
    [("/" ++ first, module, "main"), ("/" ++ second, module', "main")]
  apart : module ≠ module'
  origins : (rivals (rivalSources first second) "Money").map (·.origin) =
    [(module, [.ofString "Old money."]), (module', [.ofString "New money."])]
  told : ∀ s ∈ rivalSources first second,
    ∀ decl ∈ (Scope.ofSource s).classes.values,
      (⟨.ofList ((rivalSources first second).map fun s =>
        (s.module, Scope.ofSource s))⟩ :
      Symbols).breakdown? ⟨.ofSource s, decl⟩ = none

theorem rivals_sourcePaths {first second module module' : String}
    (h : Rivals first second module module') :
    Program.sourcePaths (rivalTree first second) config =
    ["/" ++ first, "/" ++ second] := by
  obtain ⟨hroot, hmodule, -, -⟩ := crowded_paths
  have hentry : FileTree.entry? (rivalTree first second) "/" =
      some (rivalTree first second).root := rfl
  have hfiles : (rivalTree first second).filesBelow "/"
      (Program.admits config "/" "/frontend/backend") =
      [[first], [second]] := by
    unfold FileTree.filesBelow
    rw [hentry]
    have hnames : sortNames [first, second] = [first, second] :=
      List.mergeSort_of_pairwise (by simpa using h.order)
    simp [rivalTree, FileTree.filesOf, FileTree.innerFiles,
      Entry.isDirectory, hnames]
  unfold Program.sourcePaths
  rw [hroot, hmodule]
  dsimp only
  rw [hfiles]
  exact h.sources

/-- Two files of one package with different modules keep both their scopes. -/
theorem has_pair {f g s : Source} (hpackage : f.package = g.package)
    (config : Config) (hmodules : f.module ≠ g.module) (hs : s ∈ [f, g]) :
    (Symbols.ofProgram (.ofSources config [f, g])).Has (.ofSource s) := by
  rw [symbols_pair f g hpackage]
  have honly :
      ∀ b, (s.module, b) ∈ [f, g].map (fun s => (s.module, Scope.ofSource s)) →
      b = Scope.ofSource s := by
    intro b hb
    obtain ⟨s', hs', hsame⟩ := List.mem_map.mp hb
    obtain ⟨hmodule, rfl⟩ := Prod.mk.inj hsame
    rcases List.mem_pair.mp hs with rfl | rfl <;>
      rcases List.mem_pair.mp hs' with rfl | rfl
    · rfl
    · exact absurd hmodule.symm hmodules
    · exact absurd hmodule hmodules
    · rfl
  exact Table.get?_ofList_only
    (List.mem_map_of_mem (f := fun s => (s.module, Scope.ofSource s)) hs) honly

/-- The two files make up a program in which both classes are declared. -/
theorem rivals_load {first second module module' : String}
    (h : Rivals first second module module') :
    ∃ p log package c d, Program.load (rivalTree first second) config =
    (.ok p, log) ∧
      p.Tells ∧ p.packages.get? "main" = some package ∧
      package.files.map (·.path) = ["/" ++ first, "/" ++ second] ∧
      p.declarations package "Money" = [c, d] ∧
      c.origin = (module, [.ofString "Old money."]) ∧
      d.origin = (module', [.ofString "New money."]) ∧
      (Symbols.ofProgram p).Has c.scope ∧
      (Symbols.ofProgram p).Has d.scope := by
  obtain ⟨hroot, -, -, -⟩ := crowded_paths
  have hdir : (rivalTree first second).isDirectory "/" = true := rfl
  have hmain : config.rootPackage = "main" := rfl
  obtain ⟨f, rest, hsources, hf, hrest⟩ := List.map_eq_cons_iff.mp h.places
  obtain ⟨g, behind, rfl, hg, hbehind⟩ := List.map_eq_cons_iff.mp hrest
  rw [List.map_eq_nil_iff.mp hbehind] at hsources
  obtain ⟨hfpath, hfmodule, hfmain⟩ : f.path = "/" ++ first ∧
      f.module = module ∧ f.package = "main" := by simpa using hf
  obtain ⟨hgpath, hgmodule, hgmain⟩ : g.path = "/" ++ second ∧
      g.module = module' ∧ g.package = "main" := by simpa using hg
  have hload : Program.load (rivalTree first second) config =
      (.ok (.ofSources config [f, g]),
        (rivalSources first second).flatMap Program.sourceLog ++
        Program.loadLog config (.ofSources config [f, g])) := by
    unfold Program.load
    rw [rivals_sourcePaths h, hroot]
    dsimp only
    rw [hdir, hmain, h.read, ← hsources]
    rfl
  have hpackage : f.package = g.package := hfmain.trans hgmain.symm
  have hgrouped : (Program.ofSources config [f, g]).packages.get? "main" =
      some ⟨"main", Path.directoryName f.path, [f, g]⟩ := by
    simp [Program.ofSources, Program.addFile, Table.insert, Table.put,
      Table.get?, Table.find, Table.empty, hfmain, hgmain]
  have horigins := h.origins
  rw [hsources] at horigins
  obtain ⟨c, others, hrivals, hc, hothers⟩ := List.map_eq_cons_iff.mp horigins
  obtain ⟨d, last, rfl, hd, hlast⟩ := List.map_eq_cons_iff.mp hothers
  rw [List.map_eq_nil_iff.mp hlast] at hrivals
  have hdeclared : (Program.ofSources config [f, g]).declarations
      ⟨"main", Path.directoryName f.path, [f, g]⟩ "Money" = [c, d] := by
    rw [← hrivals]
    unfold Program.declarations rivals
    rw [symbols_pair f g hpackage]
    rfl
  have hmodules : f.module ≠ g.module := by
    rw [hfmodule, hgmodule]
    exact h.apart
  have hkept :
      ∀ e ∈ [c, d],
      (Symbols.ofProgram (.ofSources config [f, g])).Has e.scope := by
    intro e he
    obtain ⟨⟨s, hs, hscope⟩, -, -⟩ :=
      Program.mem_declarations.mp (hdeclared ▸ he)
    rw [hscope]
    exact has_pair hpackage config hmodules hs
  have htells : (Program.ofSources config [f, g]).Tells := by
    intro e he
    obtain ⟨hscope, hdecl⟩ := declares_classes (Symbols.keyed_ofProgram _) he
    obtain ⟨s, hs, -, hsource⟩ := Symbols.source_of_scope hscope
    obtain ⟨scope, decl⟩ := e
    obtain rfl : scope = Scope.ofSource s := hsource
    have hmem := ((Program.files_perm config [f, g]).mem_iff).mp hs
    rw [symbols_pair f g hpackage]
    have htold :=
      h.told s (hsources ▸ hmem) decl (Table.mem_values_of_get? hdecl)
    rwa [hsources] at htold
  refine ⟨_, _, _, c, d, hload, htells, hgrouped, ?_, hdeclared, hc, hd,
    hkept c (by simp), hkept d (by simp)⟩
  rw [List.map_cons, List.map_singleton, hfpath, hgpath]

/-- Where the files stand in the order of their modules, the first one's
class counts. -/
theorem purse_first : ∃ p log package c d,
    Program.load (rivalTree "money.py" "purse.py") config = (.ok p, log) ∧
    p.packages.get? "main" = some package ∧
    p.declarations package "Money" = [c, d] ∧ c.module = "money" ∧
    d.module = "purse" ∧ TakenFrom (rivalTree "money.py" "purse.py") config p
      ⟨"main", "Money"⟩ c.module c.doc := by
  have hrivals : Rivals "money.py" "purse.py" "money" "purse" :=
    ⟨by decide, by
      decide +kernel, by decide +kernel, by decide +kernel, by decide,
      by decide +kernel, by decide +kernel⟩
  obtain ⟨p, log, package, c, d, hload, htells, hpackage, -, hdeclared, hc,
      hd, hkept, -⟩ :=
    rivals_load hrivals
  have hmodule : c.module = "money" := congrArg Prod.fst hc
  have hmodule' : d.module = "purse" := congrArg Prod.fst hd
  refine ⟨p, log, package, c, d, hload, hpackage, hdeclared,
    hmodule, hmodule', ?_⟩
  obtain ⟨hnot, -⟩ | hiff :=
    Program.first_declaration_iff hload hpackage hdeclared
  · exact absurd htells hnot
  refine hiff.mpr ⟨c, ⟨List.mem_cons_self, hkept, fun e he _ => ?_⟩, rfl, rfl⟩
  rcases List.mem_pair.mp he with rfl | rfl
  · exact le_refl _
  · rw [hmodule, hmodule']
    decide

/-- A dash stands before the dot of the ending, but the underscore that it
becomes stands behind a name that has ended: the second file's class counts. -/
theorem older_beaten : ∃ p log package c d,
    Program.load (rivalTree "money-old.py" "money.py") config = (.ok p, log) ∧
    p.packages.get? "main" = some package ∧
    package.files.map (·.path) = ["/money-old.py", "/money.py"] ∧
    p.declarations package "Money" = [c, d] ∧ c.module = "money_old" ∧
    c.doc = [.ofString "Old money."] ∧
    TakenFrom (rivalTree "money-old.py" "money.py") config p
      ⟨"main", "Money"⟩ "money" [.ofString "New money."] ∧
    ¬TakenFrom (rivalTree "money-old.py" "money.py") config p
      ⟨"main", "Money"⟩ c.module c.doc := by
  have hrivals : Rivals "money-old.py" "money.py" "money_old" "money" :=
    ⟨by decide, by
      decide +kernel, by decide +kernel, by decide +kernel, by decide,
      by decide +kernel, by decide +kernel⟩
  obtain ⟨p, log, package, c, d, hload, htells, hpackage, hfiles, hdeclared, hc,
      hd, -, hkept⟩ :=
    rivals_load hrivals
  have hmodule : c.module = "money_old" := congrArg Prod.fst hc
  have hmodule' : d.module = "money" := congrArg Prod.fst hd
  have hcomes :
      (Symbols.ofProgram p).ComesFirst (p.declarations package "Money") d := by
    rw [hdeclared]
    refine ⟨by simp, hkept, fun e he _ => ?_⟩
    rcases List.mem_pair.mp he with rfl | rfl
    · rw [hmodule, hmodule']
      decide
    · exact le_refl _
  have htaken := Program.taken_of_comesFirst hload htells hpackage hcomes
  rw [hmodule', show d.doc =
    [CodeText.ofString "New money."] from congrArg Prod.snd hd] at htaken
  refine ⟨p, log, package, c, d, hload, hpackage, hfiles, hdeclared, hmodule,
    congrArg Prod.snd hc, htaken, fun hfirst => ?_⟩
  obtain ⟨st, hst, hstruct, -⟩ := htaken.registered
  obtain ⟨st', hst', hstruct', -⟩ := hfirst.registered
  rw [hst] at hst'
  cases hst'
  rw [hstruct, hmodule] at hstruct'
  exact absurd hstruct' (by decide)

end Sample

end BridgeBindings
