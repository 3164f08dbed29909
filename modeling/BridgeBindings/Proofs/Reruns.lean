import BridgeBindings.Proofs.Listing
import BridgeBindings.Proofs.Publishing

/-!
# A second run

Files that are written have names that no source file has, and directories that
are made have no source files in them. So the next run lists, reads and analyzes
what this one has, and finds that all of its files are written.
-/

namespace BridgeBindings

/-! ## Loading again -/

namespace Program

open FileTree

variable {t t' : FileTree} {config : Config} {written : List String → Prop}

theorem sourcePaths_grows (h : Grows written t t')
    (hwritten : ∀ place, written place → IsSource place = false)
    (hroot : t.isDirectory (Path.absolute config.root) = true) :
    sourcePaths t' config = sourcePaths t config :=
  congrArg (List.map _) (h.sourcesBelow hwritten hroot)

/-! What a path with the ending of source files leads to has that ending. -/

theorem isSourceName_iff {name : String} :
    isSourceName name = true ↔ ∃ stem, name = stem ++ ".py" := by
  unfold isSourceName
  rw [← String.endsWith_toSlice, String.Slice.endsWith_string_iff]
  constructor
  · rintro ⟨cs, hcs⟩
    refine ⟨String.ofList cs, ?_⟩
    rw [← String.toList_inj, String.toList_append, String.toList_ofList, hcs]
    simp
  · rintro ⟨stem, rfl⟩
    exact ⟨stem.toList, by simp⟩

theorem isSourceName_false {name : String}
    (h : name.toList.getLast? ≠ some 'y') : isSourceName name = false := by
  refine eq_false_of_ne_true fun hsource => h ?_
  obtain ⟨stem, rfl⟩ := isSourceName_iff.mp hsource
  rw [String.toList_append, show ".py".toList = ['.', 'p'] ++ ['y'] from rfl, ←
    List.append_assoc, List.getLast?_concat]

theorem exists_last_part {sep : Char} {ending : List Char} (h : sep ∉ ending)
    (cs : List Char) : ∃ before last, Text.splitOnChar sep (cs ++ ending) =
    before ++ [last ++ ending] := by
  induction cs with
  | nil =>
      refine ⟨[], [], ?_⟩
      rw [List.nil_append, Text.splitOnChar_eq_splitOn,
        List.splitOn_eq_singleton h]
      rfl
  | cons c cs ih =>
      obtain ⟨before, last, ih⟩ := ih
      rw [List.cons_append, Text.splitOnChar, ih]
      split
      · exact ⟨[] :: before, last, rfl⟩
      · cases before with
        | nil => exact ⟨[], c :: last, rfl⟩
        | cons part before => exact ⟨(c :: part) :: before, last, rfl⟩

theorem steps_source (stem : String) :
    ∃ before last, Path.steps (stem ++ ".py") = before ++ [last] ∧
    isSourceName last = true := by
  have hending : '/' ∉ ['.', 'p', 'y'] := by decide
  obtain ⟨before, last, hparts⟩ := exists_last_part hending stem.toList
  have hlong (s : String) (hs : s.toList.length < 3) :
      String.ofList last ++ ".py" ≠ s := by
    rintro rfl
    rw [String.toList_append, List.length_append] at hs
    exact absurd hs (by simp)
  refine ⟨(before.map String.ofList).filter fun part =>
    !(part.isEmpty || part = "."), String.ofList last ++ ".py", ?_,
      isSourceName_iff.mpr ⟨_, rfl⟩⟩
  unfold Path.steps Path.parts Text.split
  rw [String.toList_append, show ".py".toList = ['.', 'p', 'y'] from rfl,
    hparts, List.map_append, List.filter_append, List.map_singleton,
    String.ofList_append, show String.ofList ['.', 'p', 'y'] = ".py" from rfl,
    List.filter_cons_of_pos, List.filter_nil]
  simp [hlong "" (by decide), hlong "." (by decide)]

/-- What a path with the ending of source files leads to has that ending. -/
theorem isSource_locate {stem : String} {place : List String}
    (h : t.locate (stem ++ ".py") = .ok place) : IsSource place = true := by
  obtain ⟨before, last, hsteps, hlast⟩ := steps_source stem
  rw [locate_eq_ok, hsteps, follow_append_eq_ok] at h
  obtain ⟨inner, -, h⟩ := h
  have hplace := (follow_cons_eq_ok.mp h).2
  have hup : last ≠ ".." := by
    rintro rfl
    rw [isSourceName_false (by decide)] at hlast
    cases hlast
  rw [follow, step, if_neg hup, Except.ok.injEq] at hplace
  rw [← List.reverse_reverse place, ← hplace, List.reverse_cons,
    isSource_append]
  exact hlast

theorem ofParts_last (names : List String) (name : String) :
    ∃ front, Path.ofParts (names ++ [name]) = front ++ name := by
  induction names with
  | nil =>
      exact ⟨"", by
        rw [String.empty_append]; exact String.intercalate_singleton⟩
  | cons n names ih =>
      obtain ⟨front, ih⟩ := ih
      refine ⟨n ++ "/" ++ front, ?_⟩
      unfold Path.ofParts at ih ⊢
      rw [List.cons_append, String.intercalate_cons_of_ne_nil (by simp), ih]
      simp only [String.append_assoc]

theorem sourcePaths_source {path : String} (h : path ∈ sourcePaths t config) :
    ∃ stem, path = stem ++ ".py" := by
  obtain ⟨place, hplace, rfl⟩ := List.mem_map.mp h
  have hsource : IsSource place = true := (List.mem_filter.mp hplace).2
  have hne : place ≠ [] := by
    rintro rfl
    rw [show IsSource [] = false from isSourceName_false (by decide)] at hsource
    cases hsource
  obtain ⟨names, name, rfl⟩ := (List.eq_nil_or_concat' place).resolve_left hne
  rw [isSource_append] at hsource
  obtain ⟨stem, rfl⟩ := isSourceName_iff.mp hsource
  obtain ⟨front, hfront⟩ := ofParts_last names (stem ++ ".py")
  have hjoin (directory : String) :
      ∃ before, Path.join directory (front ++ (stem ++ ".py")) =
      before ++ (front ++ (stem ++ ".py")) := by
    unfold Path.join
    split
    · exact ⟨"", String.empty_append.symm⟩
    · split
      · exact ⟨directory, rfl⟩
      · exact ⟨directory ++ "/", rfl⟩
  obtain ⟨before, hbefore⟩ := hjoin (Path.absolute config.root)
  refine ⟨before ++ front ++ stem, ?_⟩
  rw [hfront, hbefore, String.append_assoc, String.append_assoc]

theorem read_grows (h : Grows written t t')
    (hwritten : ∀ place, written place → IsSource place = false) {stem : String}
    {content : List UInt8} (hread : t.read (stem ++ ".py") = .ok content) :
    t'.read (stem ++ ".py") = .ok content := by
  unfold FileTree.read at hread ⊢
  cases hl : t.locate (stem ++ ".py") with
  | error f =>
      rw [hl] at hread
      cases hread
  | ok place =>
      have hother : ¬written place := fun hw => by
        have hsource := isSource_locate hl
        rw [hwritten place hw] at hsource
        cases hsource
      have hfile : t.fileAt? place = some content := by
        rw [hl] at hread
        unfold fileAt?
        dsimp only at hread
        split at hread
        · next hat =>
            cases hread
            rw [hat]
        · cases hread
        · cases hread
      rw [h.locate hl]
      dsimp only
      rw [fileAt?_eq_some.mp ((h.fileAt? hother).trans hfile)]

/-- A source file that could be read reads the same after changes
that write none. -/
theorem source_grows (h : Grows written t t')
    (hwritten : ∀ place, written place → IsSource place = false)
    {path root rootPackage : String}
    (hpath : path ∈ sourcePaths t config) {s : Source}
    (hs : Source.read t root path rootPackage = .ok s) :
    Source.read t' root path rootPackage = .ok s := by
  obtain ⟨stem, rfl⟩ := sourcePaths_source hpath
  have hread : t'.read (stem ++ ".py") = t.read (stem ++ ".py") := by
    cases hr : t.read (stem ++ ".py") with
    | ok content => exact read_grows h hwritten hr
    | error f =>
        unfold Source.read Source.readText at hs
        rw [hr] at hs
        cases hs
  unfold Source.read Source.readText at hs ⊢
  rw [hread]
  exact hs

theorem readAll_congr {read read' : String → Except Fault Source}
    {paths : List String}
    (hread : ∀ path ∈ paths, ∀ s, read path = .ok s → read' path = .ok s)
    (hnone : (readAll read paths).2 = none) :
    readAll read' paths = readAll read paths := by
  induction paths with
  | nil => rfl
  | cons path paths ih =>
      rw [readAll] at hnone ⊢
      cases hfirst : read path with
      | error f =>
          rw [hfirst] at hnone
          cases hnone
      | ok s =>
          rw [hfirst] at hnone
          rw [hread path List.mem_cons_self s hfirst, readAll, hfirst]
          dsimp only
          rw [ih (fun p hp => hread p (List.mem_cons_of_mem _ hp)) hnone]

/-- The source files of a listing, read from a tree. -/
def readSources (t : FileTree) (config : Config) (paths : List String) :
    List Source × Option Fault :=
  readAll (fun path =>
    Source.read t (Path.absolute config.root) path config.rootPackage) paths

theorem load_eq (hroot : t.isDirectory (Path.absolute config.root) = true) :
    load t config = match readSources t config (sourcePaths t config) with
      | (sources, some f) => (.error f, sources.flatMap sourceLog)
      | (sources, none) =>
        (.ok (ofSources config sources),
          sources.flatMap sourceLog ++
          loadLog config (ofSources config sources)) := by
  rcases hread : readSources t config (sourcePaths t config)
    with ⟨sources, fault⟩
  unfold readSources at hread
  unfold load
  dsimp only
  rw [hroot, hread]
  cases fault <;> rfl

theorem isDirectory_of_load {p : Program} {log : Log}
    (h : load t config = (.ok p, log)) :
    t.isDirectory (Path.absolute config.root) = true := by
  unfold load at h
  dsimp only at h
  split at h
  · cases h
  · next hroot => simpa using hroot

/-- What was loaded once is loaded again after changes that write no source. -/
theorem load_grows (h : Grows written t t')
    (hwritten : ∀ place, written place → IsSource place = false)
    {p : Program} {log : Log} (hload : load t config = (.ok p, log)) :
    load t' config = (.ok p, log) := by
  have hroot := isDirectory_of_load hload
  have hsame : (readSources t config (sourcePaths t config)).2 = none →
      readSources t' config (sourcePaths t config) = readSources t config
      (sourcePaths t config) :=
    readAll_congr fun path hp s hs => source_grows h hwritten hp hs
  rw [load_eq hroot] at hload
  rw [load_eq (h.isDirectory hroot), sourcePaths_grows h hwritten hroot]
  rcases hread : readSources t config (sourcePaths t config)
    with ⟨sources, fault⟩
  rw [hread] at hload hsame
  cases fault with
  | some f => cases hload
  | none =>
      rw [hsame rfl]
      exact hload

end Program

/-! ## Running again -/

section Again

variable {files : FileTree} {config : Config}

theorem isSource_of_leads {t : FileTree} {p : Package} {place : List String}
    (h : Leads config t p place) : FileTree.IsSource place = false := by
  obtain ⟨f, -, hl⟩ := h
  obtain ⟨above, rfl, -⟩ :=
    (FileTree.locate_join (plain_fileName f) (fileName_ne_up f)).mp hl
  rw [FileTree.isSource_append]
  cases f <;> exact Program.isSourceName_false (by decide)

theorem analyze_grows {t t' : FileTree} {written : List String → Prop}
    {r : AnalysisResult} {log : Log} (h : FileTree.Grows written t t')
    (hwritten : ∀ place, written place → FileTree.IsSource place = false)
    (hr : analyze t config = (.ok r, log)) :
    analyze t' config = (.ok r, log) := by
  unfold analyze at hr ⊢
  rcases hload : Program.load t config with ⟨f | p, start⟩
  · rw [hload] at hr
    cases hr
  · rw [hload] at hr
    rw [Program.load_grows h hwritten hload]
    exact hr

/-- A second run answers, logs and leaves what the first one has, whatever
failed, unless the file system has refused the first. -/
theorem generate_idempotent (files : FileTree) (config : Config)
    (hvalid : config.Valid)
    (htemplates : ∀ d, config.templatesDir = some d → d.isEmpty = true)
    (hwritable : ∀ path message, (generate files config).1 ≠
      .error (.io path message)) :
    generate (generate files config).2.files config =
    generate files config := by
  rcases hr : analyze files config with ⟨f | r, log⟩
  · -- nothing has been written
    rw [generate_of_error hr]
    exact generate_of_error hr
  · rcases generate_effect hvalid htemplates hr with
      ⟨path, message, w, hrun⟩ | ⟨t, hrun, hgrows, hholds⟩
    · exact absurd (congrArg Prod.fst hrun) (hwritable path message)
    · have hagain :=
        analyze_grows hgrows (fun place ⟨p, _, hl⟩ => isSource_of_leads hl) hr
      have hidle : Idle t (r.sortedPackages.mapM (Emit.package config)) _ _ :=
        Idle.mapM fun p hp => package_idle htemplates (hholds p hp)
      rw [hrun]
      dsimp only
      rw [generate_of_result hagain, hidle log]
      unfold told
      cases r.sortedPackages.mapM (packageAnswer config) with
      | error f => rfl
      | ok written => cases r.failure? <;> rfl

end Again

namespace Sample

/-- Also a run that tells a failure is repeated as it was. -/
theorem tree_idempotent : intoOut.Valid ∧
    (∀ d, intoOut.templatesDir = some d → d.isEmpty = true) ∧
    (∀ path message, (generate tree intoOut).1 ≠ .error (.io path message)) ∧
    generate (generate tree intoOut).2.files intoOut =
    generate tree intoOut := by
  have htemplates : ∀ d, intoOut.templatesDir = some d → d.isEmpty = true :=
    fun _ h => by cases h
  obtain ⟨r, log, -, hwritable⟩ := tree_result
  exact ⟨intoOut_valid, htemplates, hwritable,
    generate_idempotent tree intoOut intoOut_valid htemplates hwritable⟩

end Sample

end BridgeBindings
