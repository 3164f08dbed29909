import BridgeBindings.Proofs.Publishing
import BridgeBindings.Scope
import Mathlib.Data.List.Forall2
import Mathlib.Data.List.Induction

/-!
# Files that get in each other's way

A program has one scope for each module, and a module is a name that a file gets
from its place. Different places can come to one name: the name leaves out the
parts `__init__`, writes dashes as underscores and all dividers as dots, and
what stands for nothing else takes the name of the root package. Of the files of
one module the last one holds, and what the others declare is not there.

So a program has a scope for each of its files exactly if no two of them are
spelled alike.
-/

namespace BridgeBindings

/-! ## Joined names and their parts -/

namespace Text

theorem split_injective {sep : Char} {s s' : String}
    (h : split sep s = split sep s') : s = s' := by
  have hchars : splitOnChar sep s.toList = splitOnChar sep s'.toList := by
    have h := congrArg (List.map String.toList) h
    rwa [split, split, List.map_map, List.map_map,
      show String.toList ∘ String.ofList = id from funext fun _ =>
      String.toList_ofList, List.map_id, List.map_id] at h
  rw [splitOnChar_eq_splitOn, splitOnChar_eq_splitOn] at hchars
  have hjoined : ∀ cs : List Char, [sep].intercalate
      (cs.splitOn sep) = cs := fun _ => List.intercalate_splitOn sep
  rw [← String.toList_inj, ← hjoined s.toList, hchars, hjoined]

theorem split_ne_nil (sep : Char) (s : String) : split sep s ≠ [] := by
  rw [split, splitOnChar_eq_splitOn, Ne, List.map_eq_nil_iff]
  exact List.splitOnP_ne_nil (p := (· == sep)) _

theorem splitOnChar_intercalate (sep : Char) {parts : List (List Char)}
    (h : parts ≠ []) : splitOnChar sep ([sep].intercalate parts) = parts.flatMap
    (splitOnChar sep) := by
  induction parts with
  | nil => exact absurd rfl h
  | cons part rest ih =>
      cases rest with
      | nil => simp
      | cons next rest =>
          rw [List.flatMap_cons, ← ih (List.cons_ne_nil next rest), ←
            splitOnChar_append]
          simp [List.intercalate]

/-- Characters are replaced in the parts alike, if the divider stays one and is
the only one. -/
theorem splitOnChar_map {sep : Char} {f : Char → Char}
    (hf : ∀ c, f c = sep ↔ c = sep) (cs : List Char) :
    splitOnChar sep (cs.map f) = (splitOnChar sep cs).map (List.map f) := by
  induction cs with
  | nil => rfl
  | cons c cs ih =>
      rw [List.map_cons, splitOnChar, splitOnChar, ih]
      simp only [hf c]
      split
      · rfl
      · cases splitOnChar sep cs <;> rfl

end Text

theorem split_dotJoin {names : List String} (h : names ≠ []) :
    Text.split '.' (dotJoin names) = names.flatMap (Text.split '.') := by
  unfold Text.split dotJoin
  rw [String.toList_intercalate,
    show ".".toList = ['.'] from rfl,
    Text.splitOnChar_intercalate _ (by simpa using h),
    List.map_flatMap, List.flatMap_map]

theorem split_dashesToUnderscores (s : String) :
    Text.split '.' (dashesToUnderscores s) =
    (Text.split '.' s).map dashesToUnderscores := by
  unfold Text.split dashesToUnderscores
  rw [String.toList_ofList, Text.splitOnChar_map, List.map_map, List.map_map]
  · refine List.map_congr_left fun cs _ => ?_
    simp [String.toList_ofList]
  · intro c
    split
    · next hdash => simp [hdash]
    · rfl

theorem dashesToUnderscores_eq_empty {s : String} :
    dashesToUnderscores s = "" ↔ s = "" := by
  simp [dashesToUnderscores]

theorem dotJoin_cons_ne_empty {n : String} (h : n ≠ "") (names : List String) :
    dotJoin (n :: names) ≠ "" := by
  intro hjoin
  have hchars := congrArg String.toList hjoin
  rw [dotJoin, String.toList_intercalate] at hchars
  cases names <;> simp_all [List.intercalate]

namespace Path

/-- What is taken off a path stands behind a dot in its last part, and leaves
something of that part. -/
theorem withoutExtension_cases (path : String) : withoutExtension path = path ∨
    ∃ way stem ext : List Char, path.toList = way ++ (stem ++ '.' :: ext) ∧
      withoutExtension path = String.ofList (way ++ stem) ∧ stem ≠ [] ∧
      '/' ∉ stem ++ '.' :: ext ∧ (way = [] ∨ ∃ head, way = head ++ ['/']) := by
  unfold withoutExtension
  extract_lets back name
  split
  · next stem hdrop =>
      split
      · next hany =>
          have hname : name = name.takeWhile (· ≠ '.') ++ '.' :: stem := by
            rw [← hdrop, List.takeWhile_append_dropWhile]
          have hback : back = name ++ back.dropWhile (· ≠ '/') :=
            List.takeWhile_append_dropWhile.symm
          have hrest : back.dropWhile (· ≠ '.') = '.' :: stem ++
              back.dropWhile (· ≠ '/') := by
            conv_lhs => rw [hback]
            rw [List.dropWhile_append, hdrop]
            rfl
          have hslash : '/' ∉ name := fun h => by
            simpa using List.all_eq_true.mp List.all_takeWhile '/' h
          -- the path is searched from its end, so each part stands in reverse
          refine .inr ⟨(back.dropWhile (· ≠ '/')).reverse, stem.reverse,
            (name.takeWhile (· ≠ '.')).reverse, ?_, ?_, ?_, ?_, ?_⟩
          · rw [← List.reverse_reverse path.toList]
            show back.reverse = _
            conv_lhs => rw [hback, hname]
            simp
          · rw [hrest]
            simp
          · intro hnil
            rw [List.reverse_eq_nil_iff.mp hnil] at hany
            cases hany
          · rw [hname] at hslash
            simpa [and_comm, or_comm] using hslash
          · cases htail : back.dropWhile (· ≠ '/') with
            | nil => exact .inl rfl
            | cons c tail =>
                have hc : c = '/' := by
                  have := List.head?_dropWhile_not (· ≠ '/') back
                  rw [htail] at this
                  simpa using this
                exact .inr ⟨tail.reverse, by rw [hc, List.reverse_cons]⟩
      · exact .inl rfl
  · exact .inl rfl

/-- A path whose parts are all there has them all there without
its extension. -/
theorem parts_withoutExtension {path : String}
    (h : ∀ part ∈ parts path, part ≠ "") :
    ∀ part ∈ parts (withoutExtension path), part ≠ "" := by
  rcases withoutExtension_cases path
    with hsame | ⟨way, stem, ext, hpath, hbare, hstem, hwhole, hway⟩
  · rwa [hsame]
  · have hlast : parts (String.ofList stem) = [String.ofList stem] :=
      parts_of_whole (by simp at hwhole ⊢; exact hwhole.1)
    have hne : String.ofList stem ≠ "" :=
      fun he => hstem (String.ofList_eq_empty_iff.mp he)
    rw [hbare]
    rcases hway with rfl | ⟨head, rfl⟩
    · rw [List.nil_append, hlast]
      simpa using hne
    · have hsplit : ∀ cs : List Char, String.ofList (head ++ ['/'] ++ cs) =
          String.ofList head ++ "/" ++ String.ofList cs := fun cs => by
        simp [← String.toList_inj]
      have hpath : path = String.ofList head ++ "/" ++ String.ofList
          (stem ++ '.' :: ext) := by
        rw [← hsplit, ← hpath, String.ofList_toList]
      rw [hpath, parts_append] at h
      rw [hsplit, parts_append, hlast]
      intro part hpart
      rcases List.mem_append.mp hpart with hpart | hpart
      · exact h part (List.mem_append_left _ hpart)
      · exact List.mem_singleton.mp hpart ▸ hne

theorem parts_relative (path directory : String) :
    ∀ part ∈ parts (relative path directory), part ≠ "" := by
  rcases relative_eq path directory with hdot | ⟨n, rest, hway, hplain⟩
  · rw [hdot]
    decide
  · rw [hway, parts_ofParts (List.cons_ne_nil n rest) fun m hm =>
      (hplain m hm).whole]
    exact fun part hpart => (hplain part hpart).ne_empty

end Path

/-! ## What files are called -/

namespace Source

/-- The names on the way to a file from the root directory, without its
extension and the parts that mean a package's own file. -/
def way (s : Source) : List String :=
  (Path.parts (Path.withoutExtension s.relativePath)).filter (· ≠ "__init__")

/-- How a file is spelled, name by name: a dot in a name divides it, and a dash
reads as an underscore. -/
def spelling (s : Source) : List String :=
  s.way.flatMap fun part => (Text.split '.' part).map dashesToUnderscores

/-- Two files come to one name: they are spelled alike, or one of them has
nothing to be spelled by, and the other is spelled like the root package. -/
def Crowds (rootPackage : String) (f g : Source) : Prop :=
  f.spelling = g.spelling ∨
    (f.spelling = [] ∧ g.spelling = Text.split '.' rootPackage) ∨
    (g.spelling = [] ∧ f.spelling = Text.split '.' rootPackage)

instance (rootPackage : String) (f g : Source) :
    Decidable (Crowds rootPackage f g) :=
  inferInstanceAs (Decidable (_ ∨ _))

end Source

namespace Program

variable {files : FileTree} {root path path' rootPackage : String}
    {s s' : Source}

/-- The module of a file is spelled like the file, or like the root package if
there is nothing to spell. -/
theorem split_module (h : Source.read files root path rootPackage = .ok s) :
    Text.split '.' s.module =
      if s.spelling = [] then Text.split '.' rootPackage else s.spelling := by
  obtain ⟨-, hrelative, hmodule, -⟩ := read_facts h
  have hway : s.way =
      (Path.parts (Path.withoutExtension (Path.relative path root))).filter
      (· ≠ "__init__") := by rw [Source.way, hrelative]
  have hnames : ∀ n ∈ s.way, n ≠ "" := fun n hn =>
    Path.parts_withoutExtension (Path.parts_relative path root) n
      (List.mem_filter.mp (hway ▸ hn)).1
  rw [hmodule, moduleName, ← hway]
  unfold Source.spelling
  cases hs : s.way with
  | nil => rfl
  | cons n names =>
      have hn : n ≠ "" := hnames n (hs ▸ List.mem_cons_self)
      have hjoin : dashesToUnderscores (dotJoin (n :: names)) ≠ "" := fun he =>
        dotJoin_cons_ne_empty hn names (dashesToUnderscores_eq_empty.mp he)
      have hspelling : ((n :: names).flatMap fun part =>
          (Text.split '.' part).map dashesToUnderscores) ≠ [] := fun hnil =>
        Text.split_ne_nil '.' n
          (List.map_eq_nil_iff.mp
            (List.flatMap_eq_nil_iff.mp hnil n List.mem_cons_self))
      rw [if_neg (by simpa using hjoin), if_neg hspelling,
        split_dashesToUnderscores, split_dotJoin (List.cons_ne_nil n names),
        List.map_flatMap]

/-- Files are in one module exactly if they crowd. -/
theorem module_eq_iff (h : Source.read files root path rootPackage = .ok s)
    (h' : Source.read files root path' rootPackage = .ok s') :
    s.module = s'.module ↔ s.Crowds rootPackage s' := by
  have hsplit : s.module = s'.module ↔
      Text.split '.' s.module = Text.split '.' s'.module :=
    ⟨congrArg _, Text.split_injective⟩
  rw [hsplit, split_module h, split_module h', Source.Crowds]
  by_cases hs : s.spelling = [] <;> by_cases hs' : s'.spelling = [] <;> grind

end Program

/-! ## Tables made from lists -/

namespace Table

variable {α β : Type}

theorem put_of_not_mem {key : String} {a : α} {es : List (String × α)}
    (h : key ∉ es.map (·.1)) : put key a es = es ++ [(key, a)] := by
  induction es with
  | nil => rfl
  | cons e es ih =>
      rw [List.map_cons, List.mem_cons, not_or] at h
      rw [put, if_neg (Ne.symm h.1), ih h.2, List.cons_append]

theorem ofList_snoc (es : List (String × α)) (e : String × α) :
    ofList (es ++ [e]) = (ofList es).insert e.1 e.2 := by
  rw [ofList, List.foldl_append]
  rfl

/-- A list makes a table with an entry for each of its own exactly if none of
its names comes twice. -/
theorem entries_ofList_iff (es : List (String × α)) :
    (ofList es).entries = es ↔ (es.map (·.1)).Nodup := by
  refine ⟨fun h => h ▸ nodup_ofList es, fun h => ?_⟩
  induction es using List.reverseRecOn with
  | nil => rfl
  | append_singleton es e ih =>
      rw [List.map_append, List.nodup_append] at h
      obtain ⟨hes, -, hapart⟩ := h
      have hnew : e.1 ∉ es.map (·.1) := fun hkey =>
        hapart _ hkey e.1 (List.mem_singleton.mpr rfl) rfl
      rw [ofList_snoc]
      show put e.1 e.2 (ofList es).entries = _
      rw [ih hes, put_of_not_mem hnew]

/-- The last entry of a name is what the table has. -/
theorem get?_ofList (es : List (String × α)) (key : String) :
    (ofList es).get? key = ((es.filter (·.1 = key)).getLast?).map (·.2) := by
  induction es using List.reverseRecOn with
  | nil => rfl
  | append_singleton es e ih =>
      rw [ofList_snoc, get?_insert, ih]
      by_cases he : key = e.1
      · simp [he]
      · simp [he, Ne.symm he]

theorem get?_ofList_last {before after : List (String × α)}
    {key : String} {a : α} (h : key ∉ after.map (·.1)) :
    (ofList (before ++ (key, a) :: after)).get? key = some a := by
  have hafter : after.filter (·.1 = key) = [] := by
    rw [List.filter_eq_nil_iff]
    intro e he hkey
    exact h (List.mem_map.mpr ⟨e, he, of_decide_eq_true hkey⟩)
  rw [get?_ofList, List.filter_append,
    List.filter_cons_of_pos (by simp), hafter]
  simp

theorem get?_ofList_only {es : List (String × α)} {key : String} {a : α}
    (h : (key, a) ∈ es) (honly : ∀ b, (key, b) ∈ es → b = a) :
    (ofList es).get? key = some a := by
  cases hget : (ofList es).get? key with
  | some b => rw [honly b (get?_ofList_mem hget)]
  | none =>
      rw [get?_ofList, Option.map_eq_none_iff, List.getLast?_eq_none_iff,
        List.filter_eq_nil_iff] at hget
      exact absurd (decide_eq_true rfl) (hget _ h)

/-- Lists with related values make tables with related values. -/
theorem rel_ofList {R : α → β → Prop} {es : List (String × α)}
    {es' : List (String × β)}
    (h : List.Forall₂ (fun e e' => e'.1 = e.1 ∧ R e.2 e'.2) es es') :
    ∀ key, Option.Rel R ((ofList es).get? key) ((ofList es').get? key) := by
  refine List.rel_foldl (P := fun (t : Table α) (t' : Table β) =>
    ∀ key, Option.Rel R (t.get? key) (t'.get? key))
      (fun t t' ht e e' he key => ?_) (fun _ => .none) h
  rw [get?_insert, get?_insert, he.1]
  split
  · exact .some he.2
  · exact ht key

/-- What is read off the values of a table gains, up to its order, what a new
value has more than the one before. -/
theorem flatMap_put {g : α → List β} {key : String} {a : α} {b : β}
    {es : List (String × α)} (h : g a = (find key es).elim [] g ++ [b]) :
    ((put key a es).flatMap (g ·.2)).Perm (es.flatMap (g ·.2) ++ [b]) := by
  induction es with
  | nil => exact List.Perm.of_eq (by simpa [put, find] using h)
  | cons e es ih =>
      rw [put]
      by_cases hk : e.1 = key
      · rw [find, if_pos hk] at h
        rw [if_pos hk, List.flatMap_cons, List.flatMap_cons,
          show g a = g e.2 ++ [b] from h, List.append_assoc, List.append_assoc]
        exact List.perm_append_comm.append_left (g e.2)
      · rw [find, if_neg hk] at h
        rw [if_neg hk, List.flatMap_cons, List.flatMap_cons, List.append_assoc]
        exact (ih h).append_left (g e.2)

end Table

/-! ## The files of a program -/

namespace Program

variable {files : FileTree} {root rootPackage : String}

theorem addFile_perm (packages : Table SourcePackage) (s : Source) :
    ((addFile packages s).entries.flatMap (·.2.files)).Perm
      (packages.entries.flatMap (·.2.files) ++ [s]) := by
  refine Table.flatMap_put (g := SourcePackage.files) ?_
  show ((packages.get? s.package).getD _).files ++ [s] = _
  cases hold : packages.get? s.package with
  | none =>
      rw [show Table.find s.package packages.entries = none from hold]; rfl
  | some old =>
      rw [show Table.find s.package packages.entries = some old from hold]; rfl

/-- Grouped by package, no source file is lost and none comes twice. -/
theorem files_perm (config : Config) (sources : List Source) :
    (ofSources config sources).files.Perm sources := by
  have hgrouped : ∀ (sources : List Source) (packages : Table SourcePackage),
      ((sources.foldl addFile packages).entries.flatMap (·.2.files)).Perm
        (packages.entries.flatMap (·.2.files) ++ sources) := by
    intro sources
    induction sources with
    | nil =>
        exact fun packages => by rw [List.append_nil]; exact List.Perm.refl _
    | cons s sources ih =>
        intro packages
        refine (ih (addFile packages s)).trans ?_
        rw [List.append_cons]
        exact (addFile_perm packages s).append_right sources
  have hsorted : (ofSources config sources).files.Perm
      ((sources.foldl addFile .empty).entries.flatMap (·.2.files)) := by
    unfold files sortedPackages
    rw [List.flatMap_map]
    exact (List.mergeSort_perm _ _).flatMap_right _
  exact hsorted.trans (hgrouped sources .empty)

/-- Every file of a loaded program has been read at one of the paths
that there are. -/
theorem read_of_mem_files {config : Config} {p : Program} {log : Log}
    (h : load files config = (.ok p, log)) {s : Source} (hs : s ∈ p.files) :
    ∃ path ∈ sourcePaths files config,
      Source.read files (Path.absolute config.root) path
        config.rootPackage = .ok s := by
  obtain ⟨sources, rfl, hread⟩ := load_sources h
  exact forall₂_right hread ((files_perm config sources).mem_iff.mp hs)

section Loaded

variable {paths : List String} {sources : List Source}
  (h : List.Forall₂
    (fun path s => Source.read files root path rootPackage = .ok s)
    paths sources)

include h

theorem map_path : sources.map (·.path) = paths := by
  induction h with
  | nil => rfl
  | cons hfirst _ ih => rw [List.map_cons, ih, (read_facts hfirst).1]

theorem crowds_iff {f g : Source} (hf : f ∈ sources) (hg : g ∈ sources) :
    f.module = g.module ↔ f.Crowds rootPackage g := by
  obtain ⟨_, -, hread⟩ := forall₂_right h hf
  obtain ⟨_, -, hread'⟩ := forall₂_right h hg
  exact module_eq_iff hread hread'

end Loaded

end Program

/-- A file behind which none has its module is the one whose scope
the module has. -/
theorem Symbols.scope?_of_last {p : Program}
    {before after : List Source} {g : Source}
    (h : p.files = before ++ g :: after)
    (hafter : ∀ g' ∈ after, g.module ≠ g'.module) :
    (ofProgram p).scope? g.module = some (.ofSource g) := by
  unfold scope? ofProgram
  rw [h, List.map_append, List.map_cons]
  refine Table.get?_ofList_last fun hlater => ?_
  rw [List.map_map] at hlater
  obtain ⟨g', hg', hsame⟩ := List.mem_map.mp hlater
  exact hafter g' hg' hsame.symm

/-- The last element of a list that is like one of them. -/
theorem exists_last {α : Type} {P : α → Prop} {xs : List α} {x : α}
    (hx : x ∈ xs) (h : P x) : ∃ before y after, xs = before ++ y :: after ∧
    P y ∧ ∀ z ∈ after, ¬P z := by
  induction xs using List.reverseRecOn with
  | nil => cases hx
  | append_singleton xs y ih =>
      by_cases hy : P y
      · exact ⟨xs, y, [], rfl, hy, fun z hz => by cases hz⟩
      · rcases List.mem_append.mp hx with hx | hx
        · obtain ⟨before, z, after, rfl, hz, hafter⟩ := ih hx
          refine ⟨before, z, after ++ [y], by simp, hz, fun w hw => ?_⟩
          rcases List.mem_append.mp hw with hw | hw
          · exact hafter w hw
          · exact List.mem_singleton.mp hw ▸ hy
        · exact absurd (List.mem_singleton.mp hx ▸ h) hy

/-- Every source file is loaded, the entry file with them, and the last of the
files that crowd is the one whose scope the program has. So there is a scope for
each file exactly if no two of them crowd. -/
theorem scopes_complete_iff {files : FileTree} {config : Config}
    {p : Program} {log : Log} (h : Program.load files config = (.ok p, log)) :
    (p.files.map (·.path)).Perm (Program.sourcePaths files config) ∧
      (∀ f, p.entryFile = some f → f ∈ p.files) ∧
      (∀ f ∈ p.files, ∃ before g after, p.files = before ++ g :: after ∧
        f.Crowds config.rootPackage g ∧
        (∀ g' ∈ after, ¬f.Crowds config.rootPackage g') ∧
          (Symbols.ofProgram p).scope? f.module = some (.ofSource g)) ∧
      ((Symbols.ofProgram p).scopes.entries =
        p.files.map (fun f => (f.module, .ofSource f)) ↔
        p.files.Pairwise fun f g => ¬f.Crowds config.rootPackage g) := by
  obtain ⟨sources, rfl, hread⟩ := Program.load_sources h
  have hperm := Program.files_perm config sources
  -- scopes are kept by the names of modules, and these are the same exactly for
  -- files that crowd
  have hcrowd : ∀ f ∈ (Program.ofSources config sources).files,
      ∀ g ∈ (Program.ofSources config sources).files,
        f.module = g.module ↔ f.Crowds config.rootPackage g := fun f hf g hg =>
    Program.crowds_iff hread (hperm.mem_iff.mp hf) (hperm.mem_iff.mp hg)
  refine ⟨?_, ?_, ?_, ?_⟩
  · exact Program.map_path hread ▸ hperm.map _
  · intro f hf
    exact hperm.mem_iff.mpr (List.mem_of_find?_eq_some hf)
  · intro f hf
    obtain ⟨before, g, after, hsplit, hg, hafter⟩ :=
      exists_last (P := fun g => f.module = g.module) hf rfl
    have hmem : ∀ g' ∈ g :: after,
        g' ∈ (Program.ofSources config sources).files := fun g' hg' =>
      hsplit ▸ List.mem_append_right before hg'
    refine ⟨before, g, after, hsplit,
      (hcrowd f hf g (hmem g List.mem_cons_self)).mp hg,
      fun g' hg' hc => ?_, ?_⟩
    · have hg'' := hmem g' (List.mem_cons_of_mem g hg')
      exact hafter g' hg' ((hcrowd f hf g' hg'').mpr hc)
    · rw [hg]
      exact Symbols.scope?_of_last hsplit fun g' hg' he =>
        hafter g' hg' (hg.trans he)
  · show (Table.ofList _).entries = _ ↔ _
    rw [Table.entries_ofList_iff, List.map_map, List.Nodup, List.pairwise_map]
    refine List.Pairwise.iff_of_mem fun {f g} hf hg => ?_
    exact not_congr (hcrowd f hf g hg)

namespace Sample

/-- Files of two packages, none of which crowds the other. -/
theorem tree_complete : Program.load tree intoOut =
      (.ok (stockedProgram [] faultyCart), stockedLog [] faultyCart) ∧
    (Symbols.ofProgram (stockedProgram [] faultyCart)).scopes.entries =
      (stockedProgram [] faultyCart).files.map fun f =>
        (f.module, .ofSource f) := by
  have hapart : (stockedProgram [] faultyCart).files.Pairwise
      fun f g => ¬f.Crowds intoOut.rootPackage g := by
    unfold Program.files Program.sortedPackages
    rw [List.mergeSort_of_pairwise tree_stocks.packagesSorted]
    decide +kernel
  have hload := stocked_loads tree_stocks
  exact ⟨hload, (scopes_complete_iff hload).2.2.2.mpr hapart⟩

/-- A package's own file in the root directory, and the file of the name that
the root package has. -/
def crowdedTree : FileTree := ⟨.directory
  [("__init__.py", .file (Text.encodeUtf8 "class Note:\n    text: str\n")),
    ("main.py", .file (Text.encodeUtf8 "def main():\n    pass\n"))]⟩

def crowdedSources : List Source :=
  (Program.readAll (fun path => Source.read crowdedTree "/" path "main")
    ["/__init__.py", "/main.py"]).1

def crowdedProgram : Program := .ofSources config crowdedSources

theorem crowded_paths : Path.absolute config.root = "/" ∧
    Path.absolute config.modulePath = "/frontend/backend" ∧
    crowdedTree.isDirectory "/" = true ∧
    ([["__init__.py"], ["main.py"]].filter fun place =>
      Program.isSourceName (place.getLast?.getD "")).map
        (fun place => Path.join "/" (Path.ofParts place)) =
        ["/__init__.py", "/main.py"] := by
  decide +kernel

theorem crowded_sourcePaths :
    Program.sourcePaths crowdedTree config = ["/__init__.py", "/main.py"] := by
  obtain ⟨hroot, hmodule, -, hsources⟩ := crowded_paths
  have hentry : crowdedTree.entry? "/" = some crowdedTree.root := rfl
  have hfiles :
      crowdedTree.filesBelow "/"
        (Program.admits config "/" "/frontend/backend") =
      [["__init__.py"], ["main.py"]] := by
    unfold FileTree.filesBelow
    rw [hentry]
    have hnames : sortNames ["__init__.py", "main.py"] =
        ["__init__.py", "main.py"] :=
      List.mergeSort_of_pairwise (by decide)
    simp [crowdedTree, FileTree.filesOf, FileTree.innerFiles,
      Entry.isDirectory, hnames]
  unfold Program.sourcePaths
  rw [hroot, hmodule]
  dsimp only
  rw [hfiles]
  exact hsources

theorem crowded_facts :
    (Program.readAll (fun path => Source.read crowdedTree "/" path "main")
      ["/__init__.py", "/main.py"]).2 = none ∧
    crowdedSources.map (fun s => (s.path, s.module, s.package)) =
      [("/__init__.py", "main", "main"), ("/main.py", "main", "main")] ∧
    crowdedSources.map (fun s => (Scope.ofSource s).classes.keys) =
    [["Note"], []] := by
  decide +kernel

theorem crowded_loads : Program.load crowdedTree config = (.ok crowdedProgram,
    crowdedSources.flatMap Program.sourceLog ++
    Program.loadLog config crowdedProgram) := by
  obtain ⟨hroot, -, hdir, -⟩ := crowded_paths
  have hpackage : config.rootPackage = "main" := rfl
  unfold Program.load
  rw [crowded_sourcePaths, hroot]
  dsimp only
  rw [hdir, hpackage, crowded_facts.1]
  rfl

/-- Two files of one package are the files of their program. -/
theorem files_pair {f g : Source} (h : f.package = g.package)
    (config : Config) : (Program.ofSources config [f, g]).files = [f, g] := by
  simp [Program.files, Program.sortedPackages, Program.ofSources,
    Program.addFile, Table.insert, Table.put, Table.get?, Table.find,
    Table.empty, h]

theorem symbols_pair (f g : Source) (h : f.package = g.package)
    (config : Config) : Symbols.ofProgram (.ofSources config [f, g]) =
      ⟨.ofList [(f.module, .ofSource f), (g.module, .ofSource g)]⟩ := by
  unfold Symbols.ofProgram
  rw [files_pair h]
  rfl

/-- The first of the two files is loaded and has no scope, and the class that it
declares is in none. -/
theorem crowded_lost :
    ∃ p log f g, Program.load crowdedTree config = (.ok p, log) ∧
    p.files = [f, g] ∧ f.path = "/__init__.py" ∧ g.path = "/main.py" ∧
    f.module = g.module ∧ (Scope.ofSource f).classes.keys = ["Note"] ∧
    (Scope.ofSource g).classes.keys = [] ∧
    (Symbols.ofProgram p).scopes.entries = [(g.module, .ofSource g)] := by
  obtain ⟨-, hplaces, hclasses⟩ := crowded_facts
  obtain ⟨f, rest, hsources, hf, hrest⟩ := List.map_eq_cons_iff.mp hplaces
  obtain ⟨g, behind, rfl, hg, hbehind⟩ := List.map_eq_cons_iff.mp hrest
  rw [List.map_eq_nil_iff.mp hbehind] at hsources
  rw [hsources] at hclasses
  have hfiles : crowdedProgram.files = [f, g] := by
    unfold crowdedProgram
    rw [hsources]
    exact files_pair
      ((congrArg (·.2.2) hf).trans (congrArg (·.2.2) hg).symm) config
  have hmodule : f.module = g.module :=
    (congrArg (·.2.1) hf).trans (congrArg (·.2.1) hg).symm
  refine ⟨crowdedProgram, _, f, g, crowded_loads, hfiles, congrArg (·.1) hf,
    congrArg (·.1) hg, hmodule, ?_, ?_, ?_⟩
  · exact (List.cons.inj hclasses).1
  · exact (List.cons.inj (List.cons.inj hclasses).2).1
  · unfold Symbols.ofProgram
    rw [hfiles]
    simp [hmodule, Table.ofList, Table.insert, Table.put, Table.empty]

end Sample

end BridgeBindings
