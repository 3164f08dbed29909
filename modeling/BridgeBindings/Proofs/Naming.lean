import BridgeBindings.Proofs.Contract
import BridgeBindings.Proofs.Places
import BridgeBindings.Config.Read
import BridgeBindings.Program

/-!
# The names that packages get

A package is named by the way from the root to its directory. The parts of that
way come from a path in normal form, so none is empty or a dot, and neither is
the name made of them: it is one name within any directory, and the packages of
a program have directories side by side.
-/

namespace BridgeBindings

namespace Path

theorem parts_ofParts {names : List String} (hne : names ≠ [])
    (h : ∀ n ∈ names, '/' ∉ n.toList) : parts (ofParts names) = names := by
  unfold parts ofParts Text.split
  have hchars : ("/".intercalate names).toList =
      ['/'].intercalate (names.map String.toList) :=
    String.toList_intercalate
  rw [hchars, Text.splitOnChar_eq_splitOn,
    List.splitOn_intercalate, List.map_map]
  · exact (List.map_congr_left fun n _ => String.ofList_toList).trans
      (List.map_id names)
  · intro cs hcs
    obtain ⟨n, hn, rfl⟩ := List.mem_map.mp hcs
    exact h n hn
  · exact fun hmap => hne (List.map_eq_nil_iff.mp hmap)

theorem parts_slash (path : String) :
    parts ("/" ++ path) = "" :: parts path := by
  rw [← String.empty_append (s := "/" ++ path), ← String.append_assoc,
    parts_append]
  rfl

/-! ## Names on the way from the root -/

theorem push_plain {absolute : Bool} {stack : List String} {part : String}
    (hpart : '/' ∉ part.toList) (h : ∀ n ∈ stack, Plain n) :
    ∀ n ∈ push absolute stack part, Plain n := by
  have hup : Plain ".." := ⟨by decide, by decide, by decide⟩
  intro n hn
  unfold push at hn
  split at hn
  · exact h n hn
  · next hdot =>
      simp only [Bool.or_eq_true, String.isEmpty_iff, decide_eq_true_eq,
        not_or] at hdot
      split at hn
      · split at hn
        · split at hn
          · cases hn
          · rw [List.mem_singleton.mp hn]
            exact hup
        · split at hn
          · rcases List.mem_cons.mp hn with rfl | hn
            · exact hup
            · exact h n hn
          · exact h n (List.mem_cons_of_mem _ hn)
      · rcases List.mem_cons.mp hn with rfl | hn
        · exact ⟨hdot.1, hdot.2, hpart⟩
        · exact h n hn

theorem isAbsolute_join_root (path : String) :
    isAbsolute (join "/" path) = true := by
  unfold join
  split
  · next h => exact h
  · rw [if_pos (by decide)]
    unfold isAbsolute
    rw [String.toList_append]
    rfl

theorem rootSlashes_of_isAbsolute {path : String} (h : isAbsolute path = true) :
    rootSlashes path = "/" ∨ rootSlashes path = "//" := by
  have hhead : path.toList.head? = some '/' := of_decide_eq_true h
  unfold rootSlashes
  split
  · exact .inl rfl
  · exact .inr rfl
  · exact .inl rfl
  · next hne =>
      cases hchars : path.toList with
      | nil => rw [hchars] at hhead; cases hhead
      | cons c cs =>
          rw [hchars] at hhead
          obtain rfl : c = '/' := Option.some.inj hhead
          exact absurd hchars (hne cs)

/-- Walked from the root directory, a path leaves no empty part
behind and no dot. -/
theorem plain_stack (path : String) :
    ∀ n ∈ (parts path).foldl (push true) [], Plain n :=
  List.foldlRecOn (motive := fun stack => ∀ n ∈ stack, Plain n) _ _
    (fun _ hn => absurd hn List.not_mem_nil) fun _ hs _ hpart =>
      push_plain (parts_whole hpart) hs

theorem foldl_push_steps (path : String) (stack : List String) :
    (parts path).foldl (push true) stack = (steps path).foldl
    (push true) stack := by
  unfold steps
  rw [List.foldl_filter]
  congr 1
  funext stack part
  unfold push
  split <;> simp_all

theorem steps_join_root (path : String) :
    steps (join "/" path) = steps path := by
  cases h : isAbsolute path with
  | true => rw [join, h]; rfl
  | false => rw [steps_join h]; rfl

/-- The names on the way from the root directory are the steps of a path, one
after the other. -/
theorem names_eq (path : String) :
    names path = ((steps path).foldl (push true) []).reverse := by
  rw [← steps_join_root path, ← foldl_push_steps]
  have hstack := plain_stack (join "/" path)
  unfold names absolute normalize
  dsimp only
  rw [isAbsolute_join_root]
  generalize (parts (join "/" path)).foldl (push true) [] = stack at hstack
  have hparts : (parts (ofParts stack.reverse)).filter (!·.isEmpty) =
      stack.reverse := by
    cases hrev : stack.reverse with
    | nil => rfl
    | cons top below =>
        have hplain : ∀ n ∈ top :: below, Plain n := fun n hn =>
          hstack n (List.mem_reverse.mp (hrev ▸ hn))
        rw [parts_ofParts (List.cons_ne_nil top below) fun n hn =>
          (hplain n hn).whole, List.filter_eq_self]
        exact fun n hn => by simpa using (hplain n hn).ne_empty
  rcases rootSlashes_of_isAbsolute (isAbsolute_join_root path)
    with hroot | hroot
  · rw [hroot, if_neg (by simp), parts_slash]
    exact hparts
  · rw [hroot, if_neg (by simp), show "//" = "/" ++ "/" from rfl,
      String.append_assoc, parts_slash, parts_slash]
    exact hparts

theorem names_plain {path n : String} (h : n ∈ names path) : Plain n := by
  rw [names_eq, List.mem_reverse, ← foldl_push_steps] at h
  exact plain_stack path n h

theorem mem_dropShared {n : String} {as bs : List String}
    (h : n ∈ (dropShared as bs).2) : n ∈ bs := by
  induction as generalizing bs with
  | nil => rwa [dropShared] at h; simp
  | cons a as ih =>
      cases bs with
      | nil => rwa [dropShared] at h; simp
      | cons b bs =>
          rw [dropShared] at h
          split at h
          · exact List.mem_cons_of_mem _ (ih h)
          · exact h

/-- The way to a path is a dot, or a list of names that are neither
empty nor a dot. -/
theorem relative_eq (path directory : String) : relative path directory = "." ∨
    ∃ n rest, relative path directory = ofParts (n :: rest) ∧
    ∀ m ∈ n :: rest, Plain m := by
  unfold relative
  dsimp only
  split
  · exact .inl rfl
  · next hne =>
      generalize hway :
        List.replicate
          (dropShared (names directory) (names path)).1.length ".." ++
        (dropShared (names directory) (names path)).2 = way at hne
      obtain ⟨n, rest, rfl⟩ := List.exists_cons_of_ne_nil hne
      refine .inr ⟨n, rest, rfl, fun m hm => ?_⟩
      rw [← hway] at hm
      rcases List.mem_append.mp hm with hm | hm
      · rw [List.eq_of_mem_replicate hm]
        exact ⟨by decide, by decide, by decide⟩
      · exact names_plain (mem_dropShared hm)

end Path

/-! ## Names of packages -/

namespace Text

theorem exists_part_of_mem {sep c : Char} {cs : List Char} (h : c ∈ cs)
    (hc : c ≠ sep) : ∃ part ∈ splitOnChar sep cs, c ∈ part := by
  induction cs with
  | nil => cases h
  | cons first cs ih =>
      rw [splitOnChar]
      split
      · next hfirst =>
          rcases List.mem_cons.mp h with rfl | h
          · exact absurd hfirst hc
          · obtain ⟨part, hpart, hc⟩ := ih h
            exact ⟨part, List.mem_cons_of_mem _ hpart, hc⟩
      · rcases List.mem_cons.mp h with rfl | h
        · split
          · exact ⟨_, List.mem_singleton_self _, List.mem_singleton_self _⟩
          · exact ⟨_, List.mem_cons_self, List.mem_cons_self⟩
        · obtain ⟨part, hpart, hc⟩ := ih h
          split
          · next hnone =>
              rw [hnone] at hpart
              cases hpart
          · next p ps hps =>
              rw [hps] at hpart
              rcases List.mem_cons.mp hpart with rfl | hpart
              · exact ⟨_, List.mem_cons_self, List.mem_cons_of_mem _ hc⟩
              · exact ⟨part, List.mem_cons_of_mem _ hpart, hc⟩

/-- Every character of an identifier opens one or goes on one. -/
theorem opens_or_extends {s : String} (h : isIdentifier s = true) {c : Char}
    (hc : c ∈ s.toList) :
    opensIdentifier c = true ∨ extendsIdentifier c = true := by
  unfold isIdentifier at h
  cases hchars : s.toList with
  | nil =>
      rw [hchars] at hc
      cases hc
  | cons first rest =>
      rw [hchars, isIdentifierChars, Bool.and_eq_true] at h
      rw [hchars] at hc
      rcases List.mem_cons.mp hc with rfl | hc
      · exact .inl h.1
      · exact .inr (List.all_eq_true.mp h.2 c hc)

theorem plain_of_isDottedIdentifier {s : String}
    (h : isDottedIdentifier s = true) : Path.Plain s := by
  refine ⟨?_, ?_, fun hslash => ?_⟩
  · rintro rfl
    exact absurd h (by decide)
  · rintro rfl
    exact absurd h (by decide)
  · have hparts : ∃ part ∈ splitOnChar '.' s.toList, '/' ∈ part :=
      exists_part_of_mem hslash (by decide)
    obtain ⟨part, hpart, hc⟩ := hparts
    have hident :=
      List.all_eq_true.mp h (String.ofList part) (List.mem_map_of_mem hpart)
    rcases opens_or_extends hident (by rwa [String.toList_ofList]) with h | h
    · exact absurd h (by decide)
    · exact absurd h (by decide)

end Text

namespace Path

theorem Plain.dotted {n m : String} (hn : Plain n) (hm : Plain m) :
    Plain (n ++ "." ++ m) := by
  have hchars : (n ++ "." ++ m).toList = n.toList ++ '.' :: m.toList := by
    rw [String.toList_append, String.toList_append, List.append_assoc]
    rfl
  have hlength {k : String} (hk : Plain k) : 0 < k.toList.length :=
    List.length_pos_iff.mpr fun h => hk.ne_empty (String.toList_eq_nil_iff.mp h)
  have hlong : 3 ≤ (n ++ "." ++ m).toList.length := by
    have := hlength hn
    have := hlength hm
    rw [hchars, List.length_append, List.length_cons]
    omega
  refine ⟨fun h => ?_, fun h => ?_, fun h => ?_⟩
  · rw [h] at hlong
    exact absurd hlong (by decide)
  · rw [h] at hlong
    exact absurd hlong (by decide)
  · rw [hchars, List.mem_append, List.mem_cons] at h
    rcases h with h | h | h
    · exact hn.whole h
    · exact absurd h (by decide)
    · exact hm.whole h

theorem dotJoin_plain {n : String} {rest : List String}
    (h : ∀ m ∈ n :: rest, Plain m) : Plain (dotJoin (n :: rest)) := by
  induction rest generalizing n with
  | nil =>
      have hn := h n List.mem_cons_self
      rwa [dotJoin, String.intercalate_singleton]
  | cons m rest ih =>
      rw [dotJoin, String.intercalate_cons_cons]
      exact (h n List.mem_cons_self).dotted
        (ih fun k hk => h k (List.mem_cons_of_mem _ hk))

theorem dashesToUnderscores_plain {n : String} (h : Plain n) :
    Plain (dashesToUnderscores n) := by
  have hchar (c : Char) (hc : c ≠ '_') (d : Char) :
      (if d = '-' then '_' else d) = c → d = c := by
    split
    · exact fun he => absurd he.symm hc
    · exact id
  refine ⟨fun hd => h.ne_empty ?_, fun hd => h.ne_dot ?_, fun hd => h.whole ?_⟩
  · have hchars := String.ofList_eq_empty_iff.mp hd
    exact String.toList_eq_nil_iff.mp (List.map_eq_nil_iff.mp hchars)
  · have hchars :
        n.toList.map (fun c => if c = '-' then '_' else c) = ['.'] := by
      rw [← String.toList_ofList (l := n.toList.map _)]
      exact congrArg String.toList hd
    obtain ⟨c, hc, hdot⟩ := List.map_eq_singleton_iff.mp hchars
    rw [← String.toList_inj, hc, hchar '.' (by decide) c hdot]
    rfl
  · unfold dashesToUnderscores at hd
    rw [String.toList_ofList] at hd
    obtain ⟨c, hc, hslash⟩ := List.mem_map.mp hd
    rwa [hchar '/' (by decide) c hslash] at hc

end Path

/-- A package's name is one name within a directory. -/
theorem packageName_plain {root directory rootPackage : String}
    (h : Text.isDottedIdentifier rootPackage = true) :
    Path.Plain (packageName root directory rootPackage) := by
  unfold packageName
  split
  · exact Text.plain_of_isDottedIdentifier h
  · next hdot =>
      rcases Path.relative_eq directory root with hrel | ⟨n, rest, hrel, hplain⟩
      · exact absurd hrel hdot
      · rw [hrel, Path.parts_ofParts (List.cons_ne_nil n rest) fun m hm =>
          (hplain m hm).whole]
        exact Path.dashesToUnderscores_plain (Path.dotJoin_plain hplain)

/-! ## Valid configurations -/

/-- What every configuration that was accepted keeps to. -/
structure Config.Valid (config : Config) : Prop where
  bridgeModule : Text.isDottedIdentifier config.bridgeModule = true
  rootPackage : Text.isDottedIdentifier config.rootPackage = true
  bindMethods : config.bindMethods ≠ []

namespace Config

variable {settings : Table Setting} {name : String}

theorem problemsOf_get?
    (h : settings.entries.flatMap (fun (name, s) => problemsOf name s) = [])
    {s : Setting} (hs : settings.get? name = some s) : problemsOf name s = [] :=
  List.flatMap_eq_nil_iff.mp h (name, s) (Table.get?_mem hs)

theorem text?_dotted
    (h : settings.entries.flatMap (fun (name, s) => problemsOf name s) = [])
    (htext : name ∈ textSettings) (hname : name ∈ nameSettings) {value : String}
    (hvalue : text? settings name = some value) :
    Text.isDottedIdentifier value = true := by
  unfold text? at hvalue
  split at hvalue
  · next v hv =>
      cases hvalue
      have hnone := problemsOf_get? h hv
      rw [problemsOf, if_pos (List.contains_iff_mem.mpr htext)] at hnone
      unfold textProblems at hnone
      split at hnone
      · cases hnone
      · next hcheck => simpa [hname] using hcheck
  · cases hvalue

theorem list?_bindMethods
    (h : settings.entries.flatMap (fun (name, s) => problemsOf name s) = [])
    {values : List String}
    (hvalues : list? settings "bind_methods" = some values) : values ≠ [] := by
  unfold list? at hvalues
  split at hvalues
  · next items hitems =>
      cases hvalues
      have hnone := problemsOf_get? h hitems
      rw [problemsOf, if_neg (by decide), if_pos (by decide)] at hnone
      unfold listProblems at hnone
      cases items with
      | nil => cases hnone
      | cons item items =>
          rw [if_neg (by simp)] at hnone
          cases item <;> simp [isText] at hnone ⊢
  · cases hvalues

theorem check_valid {root : String} {config : Config}
    (h : check root settings = .ok config) : config.Valid := by
  unfold check at h
  split at h
  · next hnone =>
      cases h
      refine ⟨?_, ?_, ?_⟩
      · show Text.isDottedIdentifier
            ((text? settings "bridge_module").getD "webbridge") = true
        cases hv : text? settings "bridge_module" with
        | none => decide
        | some value => exact text?_dotted hnone (by decide) (by decide) hv
      · show Text.isDottedIdentifier
            ((text? settings "root_package").getD "main") = true
        cases hv : text? settings "root_package" with
        | none => decide
        | some value => exact text?_dotted hnone (by decide) (by decide) hv
      · show (list? settings "bind_methods").getD ["bind"] ≠ []
        cases hv : list? settings "bind_methods" with
        | none => decide
        | some values => exact list?_bindMethods hnone hv
  · cases h

/-- A configuration that is loaded is valid. -/
theorem load_valid {files : FileTree} {root : String}
    {overrides : List (String × Setting)} {config : Config}
    (h : load files root overrides = .ok config) : config.Valid := by
  unfold load at h
  dsimp only [bind, Except.bind] at h
  split at h
  · cases h
  · exact check_valid h

end Config

/-! ## The packages of a program -/

/-- A source file has been read from a text that has a tree. -/
theorem Source.read_ok {files : FileTree}
    {root path rootPackage : String} {s : Source}
    (h : Source.read files root path rootPackage = .ok s) :
    ∃ text tree, Source.readText files path = .ok text ∧
      Syntax.readModule text = .ok tree ∧
      s = ⟨path, Path.relative path root, moduleName root path rootPackage,
        packageName root (Path.directoryName path) rootPackage,
        decide (Path.baseName path = "__init__.py"), tree,
        ⟨Text.lines text, (Comment.scan text).comments⟩,
        (Comment.scan text).ending⟩ := by
  unfold Source.read at h
  dsimp only [bind, Except.bind] at h
  split at h
  · cases h
  · next text htext =>
      split at h
      · cases h
      · next tree htree =>
          cases h
          exact ⟨text, tree, htext, htree, rfl⟩

namespace Program

theorem mem_addFile {sources : List Source} {q : String}
    (h : q ∈ (sources.foldl addFile .empty).keys) :
    ∃ s ∈ sources, s.package = q := by
  refine List.foldlRecOn (motive := fun (packages : Table SourcePackage) =>
    ∀ q ∈ packages.keys, ∃ s ∈ sources, s.package = q) sources addFile
      (fun q hq => absurd hq List.not_mem_nil)
      (fun packages hpackages s hs q hq => ?_) q h
  obtain ⟨e, he, rfl⟩ := List.mem_map.mp hq
  rcases Table.mem_insert he with rfl | he
  · exact ⟨s, hs, rfl⟩
  · exact hpackages e.1 (List.mem_map_of_mem he)

theorem readAll_paths {read : String → Except Fault Source}
    {paths : List String} (h : (readAll read paths).2 = none) :
    List.Forall₂ (fun path s => read path = .ok s) paths
    (readAll read paths).1 := by
  induction paths with
  | nil => exact .nil
  | cons path paths ih =>
      cases hfirst : read path with
      | error f =>
          rw [readAll, hfirst] at h
          cases h
      | ok s =>
          rw [readAll, hfirst] at h ⊢
          exact .cons hfirst (ih h)

/-- Where a file that has been read is, and what its module and
package are called. -/
theorem read_facts {files : FileTree}
    {root path rootPackage : String} {s : Source}
    (h : Source.read files root path rootPackage = .ok s) :
    s.path = path ∧ s.relativePath = Path.relative path root ∧
      s.module = moduleName root path rootPackage ∧
        s.package = packageName root (Path.directoryName path) rootPackage := by
  obtain ⟨_, _, -, -, rfl⟩ := Source.read_ok h
  simp only [and_self]

/-- A loaded program is made of the source files that there are, each of which
has been read. -/
theorem load_sources {files : FileTree} {config : Config}
    {p : Program} {log : Log} (h : load files config = (.ok p, log)) :
    ∃ sources, ofSources config sources = p ∧
      List.Forall₂ (fun path s =>
        Source.read files (Path.absolute config.root) path
          config.rootPackage = .ok s) (sourcePaths files config) sources := by
  unfold load at h
  extract_lets root at h
  split at h
  · cases h
  · rcases hread :
      readAll (fun path => Source.read files root path config.rootPackage)
      (sourcePaths files config) with ⟨sources, fault⟩
    rw [hread] at h
    cases fault with
    | some f => cases h
    | none =>
        refine ⟨sources, Except.ok.inj (congrArg Prod.fst h), ?_⟩
        have hall := readAll_paths (congrArg Prod.snd hread)
        rwa [hread] at hall

/-- What a loaded program knows of its root, and how its packages are called. -/
theorem load_packages {files : FileTree} {config : Config}
    {p : Program} {log : Log} (hvalid : config.Valid)
    (h : load files config = (.ok p, log)) :
    p.rootPackage = config.rootPackage ∧ ∀ q ∈ p.packages.keys,
      Path.Plain q := by
  obtain ⟨sources, rfl, hread⟩ := load_sources h
  refine ⟨rfl, fun q hq => ?_⟩
  obtain ⟨s, hs, rfl⟩ := mem_addFile hq
  obtain ⟨path, -, hpath⟩ := forall₂_right hread hs
  rw [(read_facts hpath).2.2.2]
  exact packageName_plain hvalid.rootPackage

end Program

end BridgeBindings
