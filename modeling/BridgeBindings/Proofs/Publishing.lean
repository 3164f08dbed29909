import BridgeBindings.Proofs.Imports
import BridgeBindings.Proofs.Survey
import BridgeBindings.Proofs.Writing
import Mathlib.Data.Finset.Max

/-!
# What a run writes

A run of the generator analyzes, writes the packages of the result one after the
other, and tells a failure at last. What the writer relies on is that the result
names each of its packages once and has no package both built and failed; then
the packages that were built have their files, and nothing else has changed.

One thing can come in between: there are no bytes for a text with a surrogate on
its own, and a comment may be such a text. The run stops over the first package
that shows one, and leaves it with an empty file.
-/

namespace BridgeBindings

open Analyze

/-! ## The result that is written -/

section Result

variable {config : Config} {program : Program} {log : Log} {r : AnalysisResult}

/-- What the writer relies on in a result. -/
structure AnalysisResult.Orderly (r : AnalysisResult) (program : Program) :
    Prop where
  root : r.rootPackage = program.rootPackage
  distinct : r.packages.keys.Nodup
  named : ∀ q p, r.packages.get? q = some p → p.name = q
  known : ∀ q, r.packages.contains q = true ∨ r.failures.contains q = true →
    q ∈ program.packages.keys
  apart : ∀ q, r.packages.contains q = true → r.failures.get? q = none

theorem buildPackage_distinct {failures : Table TypeFault} {root : String}
    (r : AnalysisResult) (package : String) :
    Keeps .free AnyFault (fun _ => r.rootPackage = root ∧ r.packages.keys.Nodup)
      (buildPackage failures r package) fun r _ => r.rootPackage = root ∧
      r.packages.keys.Nodup := by
  unfold buildPackage
  split
  · exact Keeps.pure fun _ _ h => h
  · refine Keeps.read.bind fun seen => ?_
    split
    · exact Keeps.throw trivial
    · next p hbuild =>
        refine (Keeps.modify
          (R := fun _ _ => r.rootPackage = root ∧ r.packages.keys.Nodup)
          fun s _ h => ⟨trivial, trivial, h.1⟩).bind fun _ =>
          Keeps.pure fun s _ h => ?_
        exact ⟨h.1, Table.nodup_insert h.2 package p⟩

/-- The build of the packages names the root of the program and each
package once. -/
theorem building_distinct (o : Order program) (surface : Surface)
    (failures : Table TypeFault) :
    Keeps .free AnyFault (fun _ => True)
      (o.building surface failures) fun r _ =>
      r.rootPackage = program.rootPackage ∧ r.packages.keys.Nodup := by
  refine (Keeps.modify (R := fun _ _ => True) fun _ _ _ =>
    ⟨trivial, trivial, trivial⟩).bind fun _ => ?_
  refine (Keeps.foldlM (J := fun (r : AnalysisResult) _ =>
    r.rootPackage = program.rootPackage ∧ r.packages.keys.Nodup)
      (fun r package _ => buildPackage_distinct r package) _).pre
        fun _ _ _ => ⟨rfl, Table.nodup_empty⟩

theorem answer_distinct {o : Order program} (hr : o.answer config log = .ok r) :
    r.rootPackage = program.rootPackage ∧ r.packages.keys.Nodup := by
  unfold Order.answer Order.analysis at hr
  rw [run_bind] at hr
  rcases hs : o.surveying config
    { Store.ofPackages program.packages.keys program.rootPackage with
      log := log } with
    ⟨f | found, s⟩ <;> rw [hs] at hr
  · cases hr
  · obtain ⟨-, -, hends⟩ :=
      building_distinct o found.1 found.2 s trivial trivial
    dsimp only at hr
    rcases hb : o.building found.1 found.2 s with ⟨f | r', s'⟩ <;>
      rw [hb] at hr hends
    · cases hr
    · cases hr
      exact hends

theorem answer_orderly (hr : Analysis.answer config program log = .ok r) :
    r.Orderly program := by
  obtain ⟨s, hanalyzed⟩ := answer_analyzed hr
  rw [← Order.sorted_answer] at hr
  obtain ⟨hroot, hdistinct⟩ := answer_distinct hr
  have hanswer :=
    answer_placed (E := AnyFault) (visits_any (Symbols.ofProgram program))
    (fun _ _ => trivial) (fun _ _ => trivial) (.sorted program) config log
    (fun _ _ => trivial) fun _ _ _ _ _ _ _ => .inr fun _ => trivial
  obtain ⟨failures, -, hplaced⟩ := hanswer.2 r hr
  refine ⟨hroot, hdistinct, fun q p hp => hanalyzed.name hp,
    fun q hq => ?_, fun q hq => ?_⟩
  · rcases hq with hq | hq
    · exact ((hplaced.built q).mp hq).1
    · by_contra hnot
      unfold Table.contains at hq
      rw [hplaced.failed, if_neg hnot] at hq
      cases hq
  · obtain ⟨hmem, hnone⟩ := (hplaced.built q).mp hq
    rw [hplaced.failed, if_pos hmem, hnone]

/-- The names of the packages that are written, in the order in
which they are. -/
theorem AnalysisResult.Orderly.sorted (h : r.Orderly program) :
    (r.sortedPackages.map (·.name)) = sortNames r.packages.keys := by
  have hall : ∀ names : List String, (∀ q ∈ names, q ∈ r.packages.keys) →
      (names.filterMap r.packages.get?).map (·.name) = names := by
    intro names hnames
    induction names with
    | nil => rfl
    | cons q names ih =>
        obtain ⟨⟨_, p⟩, hp, rfl⟩ :=
          List.mem_map.mp (hnames q List.mem_cons_self)
        have hget := Table.get?_of_mem h.distinct hp
        rw [List.filterMap_cons_some hget, List.map_cons, h.named _ p hget,
          ih fun q' hq' => hnames q' (List.mem_cons_of_mem _ hq')]
  exact hall _ fun q hq => List.mem_mergeSort.mp hq

theorem AnalysisResult.Orderly.mem_sorted (h : r.Orderly program) {p : Package}
    (hp : p ∈ r.sortedPackages) : r.packages.contains p.name = true := by
  have hname : p.name ∈ sortNames r.packages.keys :=
    h.sorted ▸ List.mem_map_of_mem hp
  exact Table.mem_keys_iff.mp (List.mem_mergeSort.mp hname)

theorem failure?_eq_none (h : r.failure? = none) (q : String) :
    r.failures.contains q = false := by
  unfold AnalysisResult.failure? at h
  split at h
  · cases h
  · by_contra hq
    have hkeys : q ∈ sortNames r.failures.keys :=
      List.mem_mergeSort.mpr (Table.mem_keys_iff.mpr (by simpa using hq))
    obtain ⟨first, rest, hnames⟩ :=
      List.exists_cons_of_ne_nil (List.ne_nil_of_mem hkeys)
    have hfirst : first ∈ sortNames r.failures.keys :=
      hnames ▸ List.mem_cons_self
    obtain ⟨f, hf⟩ :=
      Table.contains_iff.mp
        (Table.mem_keys_iff.mp (List.mem_mergeSort.mp hfirst))
    rw [hnames, List.head?_cons, Option.bind_some, hf] at h
    cases h

/-- The failure that is told is the root package's, or else that of the first
package that failed. -/
theorem failure?_eq_some {f : TypeFault} (h : r.failure? = some f) :
    r.failures.get? r.rootPackage = some f ∨
    r.failures.contains r.rootPackage = false ∧
      ∃ q, r.failures.get? q = some f ∧ ∀ q', r.failures.contains q' = true →
      q ≤ q' := by
  unfold AnalysisResult.failure? at h
  split at h
  · next g hg =>
      cases h
      exact .inl hg
  · next hroot =>
      obtain ⟨q, hq, hf⟩ := Option.bind_eq_some_iff.mp h
      refine .inr ⟨by simp [Table.contains, hroot], q, hf, fun q' hq' => ?_⟩
      obtain ⟨rest, hnames⟩ := List.head?_eq_some_iff.mp hq
      have hsorted := sortNames_sorted r.failures.keys
      rw [hnames, List.pairwise_cons] at hsorted
      have hmem : q' ∈ sortNames r.failures.keys :=
        List.mem_mergeSort.mpr (Table.mem_keys_iff.mpr hq')
      rw [hnames] at hmem
      rcases List.mem_cons.mp hmem with rfl | hmem
      · exact String.le_refl _
      · exact hsorted.1 q' hmem

end Result

/-! ## A whole run -/

section Run

variable {files : FileTree} {config : Config} {r : AnalysisResult} {log : Log}

theorem run_get (w : Workspace) :
    (MonadState.get : Emit Workspace) w = (.ok w, w) := rfl

theorem run_set (w w' : Workspace) : (set w' : Emit PUnit) w = (.ok ⟨⟩, w') :=
  rfl

theorem generate_of_error {f : Fault}
    (h : analyze files config = (.error f, log)) :
    generate files config = (.error f, ⟨files, log⟩) := by
  unfold generate Emit.bindings
  rw [run_bind, run_get]
  dsimp only
  rw [h]
  dsimp only
  rw [run_bind, run_set]
  rfl

/-- A run that has a result writes its packages, and only then
tells the failure. -/
theorem generate_of_result (h : analyze files config = (.ok r, log)) :
    generate files config = match r.sortedPackages.mapM (Emit.package config)
      ⟨files, log⟩ with
      | (.error f, w) => (.error f, w)
      | (.ok written, w) => match r.failure? with
        | some f => (.error (.type f), w)
        | none => (.ok written.flatten, w) := by
  unfold generate Emit.bindings
  rw [run_bind, run_get]
  dsimp only
  rw [h]
  dsimp only
  rw [run_bind, run_set]
  dsimp only
  rw [run_bind, List.nil_append]
  rcases r.sortedPackages.mapM (Emit.package config) ⟨files, log⟩
    with ⟨f | written, w⟩
  · rfl
  · dsimp only
    cases r.failure? <;> rfl

/-- What a run tells: what has stopped it, or the failure of its result, or the
paths that it has written. -/
def told (config : Config) (r : AnalysisResult) : Except Fault (List String) :=
  match r.sortedPackages.mapM (packageAnswer config) with
  | .error f => .error f
  | .ok written =>
    match r.failure? with
    | some f => .error (.type f)
    | none => .ok written.flatten

/-- The packages of a result that the writer comes to. -/
def packagesReached (config : Config) (r : AnalysisResult) : List Package :=
  reached (packageAnswer config) r.sortedPackages

theorem analyze_of_answer {program : Program} {start : Log}
    (hload : Program.load files config = (.ok program, start))
    (hr : Analysis.answer config program start = .ok r) :
    ∃ log, analyze files config = (.ok r, log) := by
  unfold analyze
  rw [hload]
  exact ⟨_, Prod.ext hr rfl⟩

theorem orderly_of_analyze (h : analyze files config = (.ok r, log)) :
    ∃ program start, Program.load files config = (.ok program, start) ∧
    r.Orderly program := by
  unfold analyze at h
  rcases hload : Program.load files config with ⟨f | program, start⟩
  · rw [hload] at h
    cases h
  · rw [hload] at h
    have hanswer : Analysis.answer config program start = .ok r :=
      congrArg Prod.fst h
    exact ⟨program, start, rfl, answer_orderly hanswer⟩

/-- A run with a result: unless the file system refuses, the tree has grown by
the files that were written, and has them all. -/
theorem generate_effect (hvalid : config.Valid)
    (htemplates : ∀ d, config.templatesDir = some d → d.isEmpty = true)
    (hr : analyze files config = (.ok r, log)) :
    (∃ path message w, generate files config = (.error (.io path message), w)) ∨
      ∃ t, generate files config = (told config r,
          ⟨t, log ++ (packagesReached config r).flatMap
            (packageRecords config)⟩) ∧
        FileTree.Grows
          (fun place => ∃ p ∈ packagesReached config r, Leads config t p place)
          files t ∧
        ∀ p ∈ packagesReached config r, Holds config p t := by
  obtain ⟨program, start, hload, horderly⟩ := orderly_of_analyze hr
  obtain ⟨-, hplain⟩ := Program.load_packages hvalid hload
  have hpackages : ∀ p ∈ r.sortedPackages, Path.Plain p.name := fun p hp =>
    hplain _ (horderly.known _ (.inl (horderly.mem_sorted hp)))
  have hdistinct : (r.sortedPackages.map (·.name)).Nodup := by
    rw [horderly.sorted]
    exact (List.mergeSort_perm _ _).nodup_iff.mpr horderly.distinct
  have hemits : Emits (r.sortedPackages.mapM (Emit.package config)) _ _ _ :=
    Emits.mapM fun p hp => package_emits htemplates (hpackages p hp)
  have hreached := reached_isPrefix (packageAnswer config) r.sortedPackages
  rw [generate_of_result hr]
  rcases hemits ⟨files, log⟩ with ⟨path, message, w, hrun⟩ | ⟨t, hrun, hwrites⟩
  · rw [hrun]
    exact .inl ⟨path, message, w, rfl⟩
  · rw [hrun]
    refine .inr ⟨t, ?_,
      holds_of_packages (fun p hp => hpackages p (hreached.subset hp))
      (hdistinct.sublist (hreached.sublist.map _)) hwrites⟩
    unfold told
    dsimp only
    cases r.sortedPackages.mapM (packageAnswer config) with
    | error f => rfl
    | ok written => cases r.failure? <;> rfl

/-! ## Whole packages -/

/-- A package of which no comment that is shown is torn. -/
def Package.Whole (p : Package) : Prop :=
  ∀ c ∈ Render.declarationComments p, c.isTorn = false

instance (p : Package) : Decidable p.Whole := List.decidableBAll _ _

section Whole

variable {p : Package}

theorem Package.Whole.text? (h : p.Whole) (f : BindingFile) :
    f.text? p = some (f.render p) := by
  have hcomments : ∀ c ∈ f.comments p, c.isTorn = false := by
    cases f with
    | declarations => exact h
    | stubs => exact fun c hc => h c (List.mem_append_right _ hc)
  unfold BindingFile.text?
  rw [if_neg fun hany => ?_]
  obtain ⟨c, hc, htorn⟩ := List.any_eq_true.mp hany
  rw [hcomments c hc] at htorn
  cases htorn

theorem text?_of_torn (h : ¬p.Whole) :
    BindingFile.declarations.text? p = none := by
  unfold Package.Whole at h
  push Not at h
  obtain ⟨c, hc, htorn⟩ := h
  exact if_pos (List.any_eq_true.mpr ⟨c, hc, by simpa using htorn⟩)

/-- Of a whole package both files are written, each as it is rendered. -/
theorem Package.Whole.answer (h : p.Whole) (config : Config) :
    filesReached config p = BindingFile.all ∧
      packageAnswer config p = .ok (bindingPaths config p.name) ∧
        ∀ f : BindingFile, f.bytes p = Text.encodeUtf8 (f.render p) := by
  have hfile : ∀ f ∈ BindingFile.all, fileAnswer config p f =
      .ok (bindingPath config p.name f) :=
    fun f _ => by rw [fileAnswer, h.text?, Option.isSome_some, if_pos rfl]
  obtain ⟨hreached, hanswer⟩ := reached_of_ok hfile
  exact ⟨hreached, hanswer, fun f => by rw [BindingFile.bytes, h.text?]; rfl⟩

/-- A package that is not whole gets an empty file of declarations,
and no other. -/
theorem answer_of_torn (h : ¬p.Whole) (config : Config) :
    filesReached config p = [.declarations] ∧
      packageAnswer config p = .error (.broken .surrogate) ∧
        BindingFile.declarations.bytes p = [] := by
  have hfile : fileAnswer config p .declarations =
      .error (.broken .surrogate) := by
    rw [fileAnswer, text?_of_torn h]
    rfl
  obtain ⟨hreached, hanswer⟩ := reached_of_error [BindingFile.stubs]
    (g := bindingPath config p.name) (List.forall_mem_nil _) hfile
  exact ⟨hreached, hanswer, by rw [BindingFile.bytes, text?_of_torn h]; rfl⟩

theorem HoldsFile.read {t : FileTree} {f : BindingFile}
    (h : HoldsFile config p t f) : t.read (bindingPath config p.name f) =
    .ok (f.bytes p) := by
  obtain ⟨place, hl, hat⟩ := h
  unfold FileTree.read
  rw [hl]
  dsimp only
  rw [hat]

end Whole

/-- What a run has made of a tree, given the result that it wrote. -/
structure Published (config : Config) (r : AnalysisResult)
    (before after : FileTree) : Prop where
  /-- A package that was built has its files, each as it is rendered. -/
  written : ∀ q p, r.packages.get? q = some p → ∀ f : BindingFile,
    after.read (bindingPath config q f) = .ok (Text.encodeUtf8 (f.render p))
  /-- At all other places the files are what they were. -/
  kept : ∀ place, (∀ q f, r.packages.contains q = true →
    after.locate (bindingPath config q f) ≠ .ok place) →
      after.fileAt? place = before.fileAt? place
  /-- So they are where the files of a package that failed would be. -/
  spared : ∀ q f place, r.failures.contains q = true →
    after.locate (bindingPath config q f) = .ok place →
      after.fileAt? place = before.fileAt? place
  directories : ∀ place, before.IsDirectoryAt place → after.IsDirectoryAt place

/-- What a run tells at last: the paths of all files, two for each package and
the packages by name, or a failure if there is one, the root package's before
that of the first package that failed. -/
structure Concluded (config : Config) (r : AnalysisResult)
    (answer : Except Fault (List String)) : Prop where
  paths : (∀ q, r.failures.contains q = false) →
    ∃ names : List String, names.Pairwise (· ≤ ·) ∧ names.Nodup ∧
      (∀ q, q ∈ names ↔ r.packages.contains q = true) ∧
      answer = .ok (names.flatMap fun q =>
        [bindingPath config q .declarations, bindingPath config q .stubs])
  failure : (∃ q, r.failures.contains q = true) →
    ∃ f, answer = .error (.type f) ∧
    (r.failures.get? config.rootPackage = some f ∨
      r.failures.contains config.rootPackage = false ∧
        ∃ q, r.failures.get? q = some f ∧ ∀ q',
          r.failures.contains q' = true → q ≤ q')

/-- What a run has made of a tree that was stopped over a package: those
before it by name have their files, it has an empty one, and nothing
else has changed. -/
structure CutShort (config : Config) (r : AnalysisResult) (stopped : String)
    (before after : FileTree) : Prop where
  written : ∀ q p, q < stopped → r.packages.get? q = some p → ∀ f : BindingFile,
    after.read (bindingPath config q f) = .ok (Text.encodeUtf8 (f.render p))
  empty : after.read (bindingPath config stopped .declarations) = .ok []
  kept : ∀ place, (∀ q f, q < stopped → r.packages.contains q = true →
    after.locate (bindingPath config q f) ≠ .ok place) →
      after.locate (bindingPath config stopped .declarations) ≠ .ok place →
        after.fileAt? place = before.fileAt? place
  directories : ∀ place, before.IsDirectoryAt place → after.IsDirectoryAt place

namespace AnalysisResult.Orderly

variable {program : Program} {t : FileTree} (h : r.Orderly program)

include h

omit h in
theorem mem_sorted_of_get? {q : String} {p : Package}
    (hp : r.packages.get? q = some p) : p ∈ r.sortedPackages :=
  List.mem_filterMap.mpr
    ⟨q, List.mem_mergeSort.mpr (Table.mem_keys_of_get? hp), hp⟩

theorem get?_of_mem_sorted {p : Package} (hp : p ∈ r.sortedPackages) :
    r.packages.get? p.name = some p := by
  obtain ⟨q, -, hget⟩ := List.mem_filterMap.mp hp
  rwa [h.named q p hget]

/-- If all packages are whole, all are reached. -/
theorem all_reached (hwhole : ∀ q p, r.packages.get? q = some p → p.Whole) :
    packagesReached config r = r.sortedPackages ∧
      r.sortedPackages.mapM (packageAnswer config) =
        .ok (r.sortedPackages.map fun p => bindingPaths config p.name) :=
  reached_of_ok fun p hp =>
    ((hwhole _ p (h.get?_of_mem_sorted hp)).answer config).2.1

/-- The packages before the first that is not whole are those with
lesser names. -/
theorem reached_of_torn (config : Config) {q : String} {p : Package}
    (hp : r.packages.get? q = some p) (htorn : ¬p.Whole)
    (hbefore : ∀ q' p', q' < q → r.packages.get? q' = some p' → p'.Whole) :
    r.sortedPackages.mapM (packageAnswer config) = .error (.broken .surrogate) ∧
      ∀ p', p' ∈ packagesReached config r ↔
        p' = p ∨ p'.name < q ∧ r.packages.get? p'.name = some p' := by
  have hname := h.named q p hp
  obtain ⟨front, back, hsplit⟩ := List.append_of_mem (mem_sorted_of_get? hp)
  have hincreasing : r.sortedPackages.Pairwise fun a b => a.name < b.name := by
    refine List.pairwise_map.mp (h.sorted ▸ ?_)
    have hdistinct : (sortNames r.packages.keys).Nodup :=
      (List.mergeSort_perm _ _).nodup_iff.mpr h.distinct
    exact ((sortNames_sorted r.packages.keys).and hdistinct).imp
      fun ⟨hle, hne⟩ => lt_of_le_of_ne hle hne
  rw [hsplit] at hincreasing
  obtain ⟨-, hback, hcross⟩ := List.pairwise_append.mp hincreasing
  have hfront : ∀ p' ∈ front, p'.name < q := fun p' hp' =>
    hname ▸ hcross p' hp' p List.mem_cons_self
  have hmem : ∀ p' ∈ front, p' ∈ r.sortedPackages := fun p' hp' =>
    hsplit ▸ List.mem_append_left _ hp'
  obtain ⟨hreached, hanswer⟩ := reached_of_error back
    (g := fun p => bindingPaths config p.name)
    (fun p' hp' => ((hbefore _ p' (hfront p' hp')
      (h.get?_of_mem_sorted (hmem p' hp'))).answer config).2.1)
      (answer_of_torn htorn config).2.1
  unfold packagesReached
  rw [hsplit, hreached]
  refine ⟨hanswer, fun p' => ?_⟩
  rw [List.mem_append, List.mem_singleton, or_comm]
  refine or_congr_right
    ⟨fun hp' => ⟨hfront p' hp', h.get?_of_mem_sorted (hmem p' hp')⟩, ?_⟩
  rintro ⟨hless, hget⟩
  have hsorted := mem_sorted_of_get? hget
  rw [hsplit] at hsorted
  rcases List.mem_append.mp hsorted with hp' | hp'
  · exact hp'
  · -- what is not before the package has no lesser name
    rcases List.mem_cons.mp hp' with rfl | hp'
    · exact absurd hless (hname ▸ String.lt_irrefl _)
    · have hgreater := (List.pairwise_cons.mp hback).1 p' hp'
      exact absurd (String.lt_trans hless (hname ▸ hgreater))
        (String.lt_irrefl _)

theorem published (hplain : ∀ q ∈ program.packages.keys, Path.Plain q)
    (hwhole : ∀ q p, r.packages.get? q = some p → p.Whole)
    (hgrows : FileTree.Grows
      (fun place => ∃ p ∈ packagesReached config r, Leads config t p place)
      files t)
    (hholds : ∀ p ∈ packagesReached config r, Holds config p t) :
    Published config r files t := by
  rw [(h.all_reached hwhole).1] at hgrows hholds
  refine ⟨fun q p hp f => ?_, fun place hplace => hgrows.fileAt? ?_,
    fun q f place hq hl => hgrows.fileAt? ?_, fun place => hgrows.isDirectoryAt⟩
  · obtain ⟨hreached, -, hbytes⟩ := (hwhole q p hp).answer config
    have hfile := (hholds p (mem_sorted_of_get? hp)).file f
      (by rw [hreached]; cases f <;> decide)
    rw [← h.named q p hp, hfile.read, hbytes]
  · rintro ⟨p, hp, f, -, hl⟩
    exact hplace p.name f (h.mem_sorted hp) hl
  · rintro ⟨p, hp, g, -, hl'⟩
    have hbuilt := h.mem_sorted hp
    have hsame := (leads_injective (hplain q (h.known q (.inr hq)))
      (hplain p.name (h.known _ (.inl hbuilt))) hl hl').1
    have hnone := h.apart p.name hbuilt
    rw [← hsame] at hnone
    simp [Table.contains, hnone] at hq

theorem cutShort {q : String} {p : Package} (hp : r.packages.get? q = some p)
    (htorn : ¬p.Whole)
    (hbefore : ∀ q' p', q' < q → r.packages.get? q' = some p' → p'.Whole)
    (hgrows : FileTree.Grows
      (fun place => ∃ p ∈ packagesReached config r, Leads config t p place)
      files t)
    (hholds : ∀ p ∈ packagesReached config r, Holds config p t) :
    CutShort config r q files t := by
  obtain ⟨-, hmem⟩ := h.reached_of_torn config hp htorn hbefore
  obtain ⟨hfiles, -, hempty⟩ := answer_of_torn htorn config
  have hname := h.named q p hp
  refine ⟨fun q' p' hless hp' f => ?_, ?_, fun place hothers hown =>
    hgrows.fileAt? ?_, fun place => hgrows.isDirectoryAt⟩
  · obtain ⟨hreached, -, hbytes⟩ := (hbefore q' p' hless hp').answer config
    have hname' := h.named q' p' hp'
    have hfile :=
      (hholds p' ((hmem p').mpr
        (.inr (by rw [hname']; exact ⟨hless, hp'⟩)))).file f
      (by rw [hreached]; cases f <;> decide)
    rw [← hname', hfile.read, hbytes]
  · have hfile := (hholds p ((hmem p).mpr (.inl rfl))).file .declarations
      (by rw [hfiles]; exact List.mem_cons_self)
    rw [← hname, hfile.read, hempty]
  · rintro ⟨p', hp', f, hf, hl⟩
    rcases (hmem p').mp hp' with rfl | ⟨hless, hget⟩
    · rw [hfiles, List.mem_singleton] at hf
      rw [hf, hname] at hl
      exact hown hl
    · exact hothers p'.name f hless (Table.contains_iff.mpr ⟨p', hget⟩) hl

theorem concluded (hroot : program.rootPackage = config.rootPackage)
    (hwhole : ∀ q p, r.packages.get? q = some p → p.Whole) :
    Concluded config r (told config r) := by
  unfold told
  rw [(h.all_reached hwhole).2]
  dsimp only
  refine ⟨fun hnone => ?_, fun ⟨q, hq⟩ => ?_⟩
  · cases hf : r.failure? with
    | some f =>
        rcases failure?_eq_some hf with hf | ⟨-, q, hf, -⟩
        · have := hnone r.rootPackage
          simp [Table.contains, hf] at this
        · have := hnone q
          simp [Table.contains, hf] at this
    | none =>
        refine ⟨sortNames r.packages.keys, sortNames_sorted _,
          (List.mergeSort_perm _ _).nodup_iff.mpr h.distinct,
          fun q => List.mem_mergeSort.trans Table.mem_keys_iff, ?_⟩
        rw [← h.sorted, List.flatMap_def, List.map_map]
        rfl
  · cases hf : r.failure? with
    | none =>
        rw [failure?_eq_none hf q] at hq
        cases hq
    | some f =>
        refine ⟨f, rfl, ?_⟩
        rw [← hroot, ← h.root]
        exact failure?_eq_some hf

end AnalysisResult.Orderly

/-- Of the packages that are not whole one is the first by name. -/
theorem AnalysisResult.exists_first_torn (r : AnalysisResult)
    (h : ∃ q p, r.packages.get? q = some p ∧ ¬p.Whole) :
    ∃ q p, r.packages.get? q = some p ∧ ¬p.Whole ∧
      ∀ q' p', q' < q → r.packages.get? q' = some p' → ¬¬p'.Whole := by
  classical
  let torn := r.packages.keys.toFinset.filter fun q =>
    ∃ p, r.packages.get? q = some p ∧ ¬p.Whole
  have hmem : ∀ q, q ∈ torn ↔ ∃ p, r.packages.get? q = some p ∧ ¬p.Whole := by
    intro q
    rw [Finset.mem_filter, List.mem_toFinset]
    exact and_iff_right_of_imp fun ⟨p, hp, _⟩ => Table.mem_keys_of_get? hp
  obtain ⟨q, hq, hleast⟩ :=
    torn.exists_min_image id (h.imp fun q => (hmem q).mpr)
  obtain ⟨p, hp, htorn⟩ := (hmem q).mp hq
  refine ⟨q, p, hp, htorn, fun q' p' hless hp' htorn' => ?_⟩
  exact (hleast q' ((hmem q').mpr ⟨p', hp', htorn'⟩)).not_gt hless

/-- A run that ends over a text without bytes has not come to tell a failure
or the paths. -/
theorem not_concluded : ¬Concluded config r (.error (.broken .surrogate)) := by
  intro h
  by_cases hfails : ∃ q, r.failures.contains q = true
  · obtain ⟨f, hf, -⟩ := h.failure hfails
    cases hf
  · push Not at hfails
    obtain ⟨names, -, -, -, hnames⟩ := h.paths fun q => by simpa using hfails q
    cases hnames

/-- A run whose analysis has a result and which the file system does not refuse
writes the packages that were built, and nothing else, and tells a failure after
that exactly if there is one; all this exactly if no comment that is shown is
torn. Over the first package with a torn one the run is cut short. -/
theorem generate_publishes (hvalid : config.Valid)
    (htemplates : ∀ d, config.templatesDir = some d → d.isEmpty = true)
    (hr : analyze files config = (.ok r, log))
    (hwritable : ∀ path message, (generate files config).1 ≠
      .error (.io path message)) :
    (Published config r files (generate files config).2.files ∧
        Concluded config r (generate files config).1 ↔
      ∀ q p, r.packages.get? q = some p → p.Whole) ∧
    ∀ q p, r.packages.get? q = some p → ¬p.Whole →
      (∀ q' p', q' < q → r.packages.get? q' = some p' → p'.Whole) →
        (generate files config).1 = .error (.broken .surrogate) ∧
          CutShort config r q files (generate files config).2.files := by
  obtain ⟨program, start, hload, horderly⟩ := orderly_of_analyze hr
  obtain ⟨hroot, hplain⟩ := Program.load_packages hvalid hload
  rcases generate_effect hvalid htemplates hr with
    ⟨path, message, w, hrun⟩ | ⟨t, hrun, hgrows, hholds⟩
  · exact absurd (congrArg Prod.fst hrun) (hwritable path message)
  rw [hrun]
  -- a torn comment cuts the run short at its package, and of several the one
  -- with the least name comes first
  have hcut : ∀ q p, r.packages.get? q = some p → ¬p.Whole →
      (∀ q' p', q' < q → r.packages.get? q' = some p' → p'.Whole) →
        told config r = .error (.broken .surrogate) ∧
        CutShort config r q files t := by
    intro q p hp htorn hbefore
    obtain ⟨hanswer, -⟩ := horderly.reached_of_torn config hp htorn hbefore
    refine ⟨?_, horderly.cutShort hp htorn hbefore hgrows hholds⟩
    unfold told
    rw [hanswer]
  refine ⟨⟨fun ⟨_, hconcluded⟩ => ?_, fun hwhole =>
    ⟨horderly.published hplain hwhole hgrows hholds,
      horderly.concluded hroot hwhole⟩⟩, hcut⟩
  by_contra hsome
  push Not at hsome
  obtain ⟨q, p, hp, htorn, hleast⟩ := r.exists_first_torn hsome
  obtain ⟨htold, -⟩ := hcut q p hp htorn fun q' p' hless hp' => by
    by_contra htorn'
    exact hleast q' p' hless hp' htorn'
  dsimp only at hconcluded
  rw [htold] at hconcluded
  exact not_concluded hconcluded

end Run

namespace Sample

def intoOut : Config := { root := "/", moduleDir := "out" }

theorem intoOut_valid : intoOut.Valid := ⟨by decide, by decide, by decide⟩

/-- Two files of two packages, and a directory for what is written. -/
def stocked (main cart : List UInt8) : FileTree :=
  ⟨.directory [("main.py", .file main),
    ("out", .directory [("main", .directory [])]),
  ("shop", .directory [("cart.py", .file cart)])]⟩

section Stocked

variable (main cart : List UInt8)

theorem stocked_paths : Path.absolute intoOut.root = "/" ∧
    Path.absolute intoOut.modulePath = "/out" ∧
    Program.admits intoOut "/" "/out" ["out"] = false ∧
    Program.admits intoOut "/" "/out" ["shop"] = true ∧
    ([["main.py"], ["shop", "cart.py"]].filter fun place =>
      Program.isSourceName (place.getLast?.getD "")).map (fun place =>
        Path.join "/" (Path.ofParts place)) = ["/main.py", "/shop/cart.py"] ∧
    Path.steps (Path.join intoOut.modulePath "main") = ["out", "main"] ∧
    ∀ f ∈ BindingFile.all, Path.steps (bindingPath intoOut "main" f) =
      ["out", "main", f.fileName] := by
  decide +kernel

theorem stocked_sourcePaths : Program.sourcePaths (stocked main cart) intoOut =
    ["/main.py", "/shop/cart.py"] := by
  obtain ⟨hroot, hmodule, hout, hshop, hsources, -⟩ := stocked_paths
  have hentry : FileTree.entry? (stocked main cart) "/" =
      some (stocked main cart).root := rfl
  have hfiles : (stocked main cart).filesBelow "/"
      (Program.admits intoOut "/" "/out") =
      [["main.py"], ["shop", "cart.py"]] := by
    unfold FileTree.filesBelow
    rw [hentry]
    simp [stocked, FileTree.filesOf, FileTree.innerFiles, Entry.isDirectory,
      sortNames, hout, hshop]
  unfold Program.sourcePaths
  rw [hroot, hmodule]
  dsimp only
  rw [hfiles]
  exact hsources

def stockedSources : List Source :=
  (Program.readAll (fun path => Source.read (stocked main cart) "/" path "main")
    ["/main.py", "/shop/cart.py"]).1

def stockedProgram : Program := .ofSources intoOut (stockedSources main cart)

def stockedLog : Log := (stockedSources main cart).flatMap Program.sourceLog ++
  Program.loadLog intoOut (stockedProgram main cart)

def stockedScopes : Table Scope :=
  .ofList
    (((stockedProgram main cart).packages.values.flatMap (·.files)).map fun s =>
    (s.module, .ofSource s))

/-- What reading the two files comes to. -/
structure Stocks : Prop where
  read :
    (Program.readAll
      (fun path => Source.read (stocked main cart) "/" path "main")
    ["/main.py", "/shop/cart.py"]).2 = none
  packages : (stockedProgram main cart).packages.keys = ["main", "shop"]
  packagesSorted : (stockedProgram main cart).packages.entries.Pairwise
    fun a b => decide (a.1 ≤ b.1) = true
  scopesSorted : (stockedScopes main cart).entries.Pairwise
    fun a b => decide (a.1 ≤ b.1) = true

variable {main cart} (h : Stocks main cart)

include h

theorem stocked_loads : Program.load (stocked main cart) intoOut =
    (.ok (stockedProgram main cart), stockedLog main cart) := by
  have hdir : (stocked main cart).isDirectory "/" = true := rfl
  have hpackage : intoOut.rootPackage = "main" := rfl
  unfold Program.load
  rw [stocked_sourcePaths, stocked_paths.1]
  dsimp only
  rw [hdir, hpackage, h.read]
  rfl

theorem stocked_symbols :
    Symbols.ofProgram (stockedProgram main cart) =
    ⟨stockedScopes main cart⟩ := by
  have hpackages : (stockedProgram main cart).sortedPackages =
      (stockedProgram main cart).packages.values := by
    unfold Program.sortedPackages
    rw [List.mergeSort_of_pairwise h.packagesSorted]
    rfl
  unfold Symbols.ofProgram Program.files
  rw [hpackages]
  rfl

theorem stocked_scopes :
    (Symbols.ofProgram (stockedProgram main cart)).sortedScopes =
    (stockedScopes main cart).values := by
  rw [stocked_symbols h]
  unfold Symbols.sortedScopes
  rw [List.mergeSort_of_pairwise h.scopesSorted]
  rfl

theorem stocked_names :
    sortNames (stockedProgram main cart).packages.keys = ["main", "shop"] := by
  rw [h.packages]
  exact List.mergeSort_of_pairwise (by decide)

omit h in
theorem stocked_places (f : BindingFile) :
    (stocked main cart).locate (bindingPath intoOut "main" f) =
        .ok ["out", "main", f.fileName] ∧
      (stocked main cart).root.at? ["out", "main", f.fileName] = none := by
  obtain ⟨-, -, -, -, -, -, hsteps⟩ := stocked_paths
  refine ⟨?_, by cases f <;> rfl⟩
  refine FileTree.locate_eq_ok.mpr ?_
  rw [hsteps f (by cases f <;> decide)]
  cases f <;> rfl

omit h in
/-- The directory of the root package is there, so its files can be written. -/
theorem stocked_writable {p : Package} (hp : p.name = "main") (log : Log) :
    ∃ w, Emit.package intoOut p ⟨stocked main cart, log⟩ =
    (packageAnswer intoOut p, w) := by
  have htemplates : ∀ d, intoOut.templatesDir = some d → d.isEmpty = true :=
    fun _ h => by cases h
  have hlocate (f : BindingFile) :
      (stocked main cart).locate (bindingPath intoOut p.name f) =
      .ok ["out", "main", f.fileName] := by
    rw [hp]
    exact (stocked_places f).1
  have hnone (f : BindingFile) :
      (stocked main cart).root.at? ["out", "main", f.fileName] = none :=
        (stocked_places f).2
  have hfree (f : BindingFile) := FileTree.not_isDirectoryAt_of_none (hnone f)
  have hdirectory :
      (stocked main cart).isDirectory (Path.join intoOut.modulePath p.name) =
      true := by
    obtain ⟨-, -, -, -, -, hsteps, -⟩ := stocked_paths
    have hplace :
        (stocked main cart).locate (Path.join intoOut.modulePath p.name) =
        .ok ["out", "main"] := by
      rw [hp, FileTree.locate_eq_ok, hsteps]
      rfl
    unfold FileTree.isDirectory FileTree.entry?
    rw [hplace]
    rfl
  have hmake :
      Idle (stocked main cart)
        (Emit.makeDirectory (Path.join intoOut.modulePath p.name))
      (.ok ()) [] := change_idle (FileTree.makeDirectories_again hdirectory)
  -- the first file leaves the place of the second as it is
  let next := (stocked main cart).put ["out", "main", "index.d.ts"]
    (.file (BindingFile.declarations.bytes p))
  have hwithin : (stocked main cart).IsDirectoryAt ["out", "main"] := ⟨[], rfl⟩
  have hchange : (stocked main cart).Change (fun _ => True) next :=
    .file _ hwithin (hfree .declarations) trivial
  have hbeside : ∀ f g : BindingFile, f ≠ g →
      ¬["out", "main", f.fileName] <+: ["out", "main", g.fileName] :=
        fun f g hne h =>
    hne (fileName_injective (List.cons_prefix_cons.mp
      (List.cons_prefix_cons.mp (List.cons_prefix_cons.mp h).2).2).1)
  have hnext : next.root.at? ["out", "main", "index.js"] = none :=
    (Entry.at?_put_beside (hbeside .declarations .stubs (by decide))
      (hbeside .stubs .declarations (by decide))
      (stocked main cart).root _).trans (hnone .stubs)
  have hlocate' : next.locate (bindingPath intoOut p.name .stubs) =
      .ok ["out", "main", "index.js"] :=
        FileTree.Grows.locate (.single hchange) (hlocate .stubs)
  have hfirst := file_written htemplates (w := ⟨stocked main cart, log ++ []⟩)
    (hlocate .declarations) (hfree .declarations)
  have hsecond (log : Log) :=
    file_written htemplates (w := ⟨next, log⟩) hlocate'
    (FileTree.not_isDirectoryAt_of_none hnext)
  unfold Emit.package packageAnswer BindingFile.all
  rw [run_bind, hmake log]
  dsimp only
  exact mapM_pair hfirst (hsecond _)

end Stocked

/-- The comments of all packages of a result. -/
def commentsOf (r : AnalysisResult) : List CodeText :=
  r.packages.values.flatMap Render.declarationComments

theorem whole_of_comments {r : AnalysisResult} (h : commentsOf r = []) :
    ∀ q p, r.packages.get? q = some p → p.Whole := by
  intro q p hp c hc
  have hmem : c ∈ commentsOf r :=
    List.mem_flatMap.mpr ⟨p, Table.mem_values_of_get? hp, hc⟩
  rw [h] at hmem
  cases hmem

/-- A package without types, and one with a type that nothing declares. -/
def faultyCart : List UInt8 :=
  Text.encodeUtf8 "class Cart:\n    owner: Nowhere\n"

def tree : FileTree := stocked [] faultyCart

theorem tree_stocks : Stocks [] faultyCart :=
  ⟨by decide +kernel, by decide +kernel, by decide +kernel, by decide +kernel⟩

theorem tree_answer : ∃ r log, analyze tree intoOut = (.ok r, log) ∧
    r.failures.keys = ["shop"] ∧ r.packages.keys = ["main"] ∧
    commentsOf r = [] := by
  have hcheck : (Analysis.answer intoOut (stockedProgram [] faultyCart)
      (stockedLog [] faultyCart)).toOption.any (fun r => decide
        (r.failures.keys = ["shop"] ∧ r.packages.keys = ["main"] ∧
          commentsOf r = [])) = true := by
    unfold Analysis.answer Analyze.program classify payloadSeeds Analyze.records
      Analyze.classes Store.ofPackages
    simp only [stocked_scopes tree_stocks, stocked_names tree_stocks,
      StructKey.sortedSet_eq]
    simp only [stocked_symbols tree_stocks]
    decide +kernel
  obtain ⟨r, hr, hfacts⟩ := (Option.any_eq_true _ _).mp hcheck
  obtain ⟨log, hlog⟩ :=
    analyze_of_answer (stocked_loads tree_stocks) (ok_of_toOption hr)
  exact ⟨r, log, hlog, of_decide_eq_true hfacts⟩

/-- Where the root package comes first, what writing it comes to decides. -/
theorem generate_stocked {main cart : List UInt8}
    {r : AnalysisResult} {log : Log}
    (hr : analyze (stocked main cart) intoOut = (.ok r, log))
    {rest : List String} (hnames : sortNames r.packages.keys = "main" :: rest) :
    ∃ p w, r.packages.get? "main" = some p ∧
      r.sortedPackages = p :: rest.filterMap r.packages.get? ∧
      Emit.package intoOut p ⟨stocked main cart, log⟩ =
      (packageAnswer intoOut p, w) := by
  obtain ⟨program, start, -, horderly⟩ := orderly_of_analyze hr
  have hkey : "main" ∈ r.packages.keys :=
    List.mem_mergeSort.mp
      (hnames ▸ List.mem_cons_self : "main" ∈ sortNames r.packages.keys)
  obtain ⟨⟨_, p⟩, hp, rfl⟩ := List.mem_map.mp hkey
  have hget := Table.get?_of_mem horderly.distinct hp
  obtain ⟨w, hw⟩ := stocked_writable (horderly.named _ p hget) log
  refine ⟨p, w, hget, ?_, hw⟩
  unfold AnalysisResult.sortedPackages
  rw [hnames, List.filterMap_cons_some hget]

theorem tree_result : ∃ r log, (analyze tree intoOut = (.ok r, log) ∧
    r.failures.keys = ["shop"] ∧ r.packages.keys = ["main"] ∧
    commentsOf r = []) ∧ ∀ path message, (generate tree intoOut).1 ≠ .error
    (.io path message) := by
  obtain ⟨r, log, hr, hfailed, hbuilt, hcomments⟩ := tree_answer
  have hnames : sortNames r.packages.keys = ["main"] := by
    rw [hbuilt]
    exact List.mergeSort_singleton _
  obtain ⟨p, w, hp, hpackages, hw⟩ := generate_stocked hr hnames
  obtain ⟨-, hanswer, -⟩ := (whole_of_comments hcomments _ p hp).answer intoOut
  refine ⟨r, log, ⟨hr, hfailed, hbuilt, hcomments⟩, fun path message h => ?_⟩
  rw [generate_of_result hr, hpackages, List.mapM_cons, run_bind,
    show Emit.package intoOut p ⟨tree, log⟩ = _ from hw, hanswer,
    List.filterMap_nil, List.mapM_nil] at h
  dsimp only at h
  cases hf : r.failure? with
  | none => rw [hf] at h; cases h
  | some f => rw [hf] at h; cases h

/-- What was built is written, although there is a failure, and that is told. -/
theorem tree_publishes : ∃ r log, intoOut.Valid ∧
    (∀ d, intoOut.templatesDir = some d → d.isEmpty = true) ∧
    analyze tree intoOut = (.ok r, log) ∧
    (∀ path message, (generate tree intoOut).1 ≠ .error (.io path message)) ∧
    r.failures.keys = ["shop"] ∧ r.packages.keys = ["main"] ∧
    Published intoOut r tree (generate tree intoOut).2.files ∧
    Concluded intoOut r (generate tree intoOut).1 := by
  have htemplates : ∀ d, intoOut.templatesDir = some d → d.isEmpty = true :=
    fun _ h => by cases h
  obtain ⟨r, log, ⟨hr, hfailed, hbuilt, hcomments⟩, hwritable⟩ := tree_result
  obtain ⟨hiff, -⟩ := generate_publishes intoOut_valid htemplates hr hwritable
  exact ⟨r, log, intoOut_valid, htemplates, hr, hwritable, hfailed, hbuilt,
    hiff.mpr (whole_of_comments hcomments)⟩

/-- A class whose comment is a surrogate on its own. -/
def tornMain : List UInt8 := Text.encodeUtf8
  ("import webbridge\n\n\n" ++
    "class Note:\n    \"\"\"\\ud800\"\"\"\n    text: str\n\n\n" ++
    "webbridge.emit('noted', Note())\n\n\ndef main():\n    pass\n")

theorem torn_stocks : Stocks tornMain [] :=
  ⟨by decide +kernel, by decide +kernel, by decide +kernel, by decide +kernel⟩

theorem torn_answer :
    ∃ r log, analyze (stocked tornMain []) intoOut = (.ok r, log) ∧
    r.failures.keys = [] ∧ r.packages.keys = ["main", "shop"] ∧
    (r.packages.get? "main").any (fun p => decide ¬p.Whole) = true := by
  have hcheck : (Analysis.answer intoOut (stockedProgram tornMain [])
      (stockedLog tornMain [])).toOption.any (fun r => decide
        (r.failures.keys = [] ∧ r.packages.keys = ["main", "shop"] ∧
          (r.packages.get? "main").any (fun p => decide ¬p.Whole) = true)) =
          true := by
    unfold Analysis.answer Analyze.program classify payloadSeeds Analyze.records
      Analyze.classes Store.ofPackages
    simp only [stocked_scopes torn_stocks, stocked_names torn_stocks,
      StructKey.sortedSet_eq]
    simp only [stocked_symbols torn_stocks]
    decide +kernel
  obtain ⟨r, hr, hfacts⟩ := (Option.any_eq_true _ _).mp hcheck
  obtain ⟨log, hlog⟩ :=
    analyze_of_answer (stocked_loads torn_stocks) (ok_of_toOption hr)
  exact ⟨r, log, hlog, of_decide_eq_true hfacts⟩

/-- Nothing fails and nothing refuses, but the run stops over the comment: it
leaves an empty file and does not answer the paths. -/
theorem torn_unpublished : ∃ r log, intoOut.Valid ∧
    (∀ d, intoOut.templatesDir = some d → d.isEmpty = true) ∧
    analyze (stocked tornMain []) intoOut = (.ok r, log) ∧
    (∀ path message, (generate (stocked tornMain []) intoOut).1 ≠
      .error (.io path message)) ∧
    r.failures.keys = [] ∧ r.packages.keys = ["main", "shop"] ∧
    (generate (stocked tornMain []) intoOut).1 = .error (.broken .surrogate) ∧
    (generate (stocked tornMain []) intoOut).2.files.read
      (bindingPath intoOut "main" .declarations) = .ok [] ∧
    ¬Concluded intoOut r (generate (stocked tornMain []) intoOut).1 := by
  have htemplates : ∀ d, intoOut.templatesDir = some d → d.isEmpty = true :=
    fun _ h => by cases h
  obtain ⟨r, log, hr, hfailed, hbuilt, htorn⟩ := torn_answer
  have hnames : sortNames r.packages.keys = ["main", "shop"] := by
    rw [hbuilt]
    exact List.mergeSort_of_pairwise (by decide)
  obtain ⟨p, w, hp, hpackages, hw⟩ := generate_stocked hr hnames
  rw [hp, Option.any_some, decide_eq_true_iff] at htorn
  obtain ⟨hfiles, hanswer, hempty⟩ := answer_of_torn htorn intoOut
  have hrun : (generate (stocked tornMain []) intoOut).1 =
      .error (.broken .surrogate) := by
    rw [generate_of_result hr, hpackages, List.mapM_cons, run_bind, hw, hanswer]
  have hwritable : ∀ path message,
      (generate (stocked tornMain []) intoOut).1 ≠
      .error (.io path message) := by
    intro path message h
    rw [hrun] at h
    cases h
  refine ⟨r, log, intoOut_valid, htemplates, hr, hwritable, hfailed,
    hbuilt, hrun, ?_, hrun ▸ not_concluded⟩
  obtain ⟨program, start, -, horderly⟩ := orderly_of_analyze hr
  rcases generate_effect intoOut_valid htemplates hr with
    ⟨path, message, w, hio⟩ | ⟨t, ht, -, hholds⟩
  · exact absurd (congrArg Prod.fst hio) (hwritable path message)
  · have hreached : p ∈ packagesReached intoOut r := by
      unfold packagesReached
      rw [hpackages, reached_cons_error hanswer]
      exact List.mem_singleton_self p
    have hfile := (hholds p hreached).file .declarations
      (by rw [hfiles]; exact List.mem_cons_self)
    rw [ht, ← horderly.named _ p hp, hfile.read, hempty]

end Sample

end BridgeBindings
