import BridgeBindings.Proofs.Histories
import BridgeBindings.Proofs.Reruns
import BridgeBindings.Proofs.Crowding
import BridgeBindings.Proofs.RelativeImports

/-!
# Which files a program holds

A walk is told by what it comes to: a file is met exactly if every directory on
the way to it is kept, and files are met in one order, those of a directory
before those of its subdirectories. Both follow the tree, one directory at a
time, since a walk below a directory is the walks below its subdirectories with
one more name in front.

What the walk meets is then read, file by file, and grouped by package. No two
places below the root have one path, and a path below the root is in normal
form already, so files may be told apart by their paths and compared with the
entry file by theirs.
-/

namespace BridgeBindings

/-! ## Trees as a file system has them -/

/-- Every directory has its entries under names of their own, each
leading down. -/
inductive Entry.WellNamed : Entry → Prop
  | file (content : List UInt8) : WellNamed (.file content)
  | directory {entries : List (String × Entry)}
      (once : (entries.map (·.1)).Nodup)
      (names : ∀ entry ∈ entries, Path.Inner entry.1)
      (below : ∀ entry ∈ entries, WellNamed entry.2) :
      WellNamed (.directory entries)

namespace Entry

variable {entries : List (String × Entry)} {name : String} {e : Entry}
    {way : List String}

/-- An entry of a directory is the one that its name leads to. -/
theorem child?_eq_some (once : (entries.map (·.1)).Nodup) :
    (directory entries).child? name = some e ↔ (name, e) ∈ entries := by
  show entries.lookup name = some e ↔ _
  rw [Table.lookup_eq_find]
  exact ⟨Table.get?_mem (t := ⟨entries⟩), Table.get?_of_mem
    (t := ⟨entries⟩) once⟩

theorem at?_cons_eq_some {found : Entry} (once : (entries.map (·.1)).Nodup) :
    (directory entries).at? (name :: way) = some found ↔
      ∃ inner, (name, inner) ∈ entries ∧ inner.at? way = some found := by
  rw [at?, Option.bind_eq_some_iff]
  exact exists_congr fun inner => and_congr_left fun _ => child?_eq_some once

theorem WellNamed.at? {found : Entry} (h : e.WellNamed)
    (hfound : e.at? way = some found) : found.WellNamed := by
  induction way generalizing e with
  | nil =>
      cases hfound
      exact h
  | cons name way ih =>
      cases h with
      | file content => cases hfound
      | directory once _ below =>
          obtain ⟨inner, hmem, hrest⟩ := (at?_cons_eq_some once).mp hfound
          exact ih (below (name, inner) hmem) hrest

theorem WellNamed.inner {found : Entry} (h : e.WellNamed)
    (hfound : e.at? way = some found) : ∀ n ∈ way, Path.Inner n := by
  induction way generalizing e with
  | nil => exact fun n hn => absurd hn List.not_mem_nil
  | cons name way ih =>
      cases h with
      | file content => cases hfound
      | directory once names below =>
          obtain ⟨inner, hmem, hrest⟩ := (at?_cons_eq_some once).mp hfound
          intro n hn
          rcases List.mem_cons.mp hn with rfl | hn
          · exact names _ hmem
          · exact ih (below _ hmem) hrest n hn

end Entry

namespace FileTree

/-! ## What a walk meets, and in which order -/

/-- The order of a walk: the files of a directory by name, before those of its
subdirectories by name. -/
inductive Before : List String → List String → Prop
  | beside {m n : String} (h : m < n) : Before [m] [n]
  | above (m : String) {way : List String} (deep : 1 < way.length) :
      Before [m] way
  | apart {d e : String} {way way' : List String} (h : d < e) (hne : way ≠ [])
      (hne' : way' ≠ []) : Before (d :: way) (e :: way')
  | within (d : String) {way way' : List String} (h : Before way way') :
      Before (d :: way) (d :: way')

theorem Before.ne {way way' : List String} (h : Before way way') :
    way ≠ way' := by
  induction h with
  | beside h => exact fun he => h.ne (List.cons.inj he).1
  | above m deep =>
      rintro rfl
      exact absurd deep (lt_irrefl 1)
  | apart h _ _ => exact fun he => h.ne (List.cons.inj he).1
  | within d _ ih => exact fun he => ih (List.cons.inj he).2

/-- The files of a directory itself. -/
def ownNames (entries : List (String × Entry)) : List String :=
  entries.filterMap fun entry => if entry.2.isDirectory then none
    else some entry.1

/-- The subdirectories that a walk goes into, by name. -/
def keptBelow (keep : List String → Bool) (entries : List (String × Entry)) :
    List (String × Entry) :=
  (entries.filter fun entry => entry.2.isDirectory && keep [entry.1]).mergeSort
    fun a b => decide (a.1 ≤ b.1)

variable {keep : List String → Bool}
    {entries : List (String × Entry)} {e : Entry}

theorem innerFiles_eq (keep : List String → Bool) (place : List String)
    (entries : List (String × Entry)) : innerFiles keep place entries =
      (entries.filter fun entry => entry.2.isDirectory &&
        keep (place ++ [entry.1])).map fun entry =>
        (entry.1, filesOf keep (place ++ [entry.1]) entry.2) := by
  induction entries with
  | nil => rw [innerFiles]; rfl
  | cons entry entries ih =>
      obtain ⟨name, e⟩ := entry
      rw [innerFiles, ih, List.filter_cons]
      dsimp only
      split <;> rfl

theorem filesOf_directory (keep : List String → Bool) (place : List String)
    (entries : List (String × Entry)) :
    filesOf keep place (.directory entries) =
      (sortNames (ownNames entries)).map (fun name => place ++ [name]) ++
        (keptBelow (fun way => keep (place ++ way)) entries).flatMap
          fun entry => filesOf keep (place ++ [entry.1]) entry.2 := by
  have hsorted : (innerFiles keep place entries).mergeSort
      (fun a b => decide (a.1 ≤ b.1)) =
      (keptBelow (fun way => keep (place ++ way)) entries).map
        fun entry => (entry.1, filesOf keep (place ++ [entry.1]) entry.2) := by
    rw [innerFiles_eq]
    have hname (entry : String × Entry) :
        (entry.1, filesOf keep (place ++ [entry.1]) entry.2).1 = entry.1 := rfl
    unfold keptBelow
    rw [List.map_mergeSort]
    exact fun a _ b _ => by rw [hname, hname]
  rw [filesOf]
  dsimp only
  rw [hsorted, List.flatMap_map]
  rfl

/-- A walk from further down meets the same, with the way down in front. -/
theorem filesOf_place (h : e.WellNamed) (keep : List String → Bool)
    (place : List String) :
    filesOf keep place e = (filesOf (fun way => keep (place ++ way)) [] e).map
    (place ++ ·) := by
  induction h generalizing keep place with
  | file content =>
      rw [filesOf, filesOf]
      rfl
  | @directory entries _ _ _ ih =>
      rw [filesOf_directory, filesOf_directory, List.map_append, List.map_map,
        List.map_flatMap]
      congr 1
      refine List.flatMap_congr fun entry hentry => ?_
      have hmem : entry ∈ entries :=
        List.mem_of_mem_filter (List.mem_mergeSort.mp hentry)
      rw [ih entry hmem keep, ih entry hmem (fun way => keep (place ++ way)),
        List.map_map]
      simp only [List.append_assoc, List.nil_append]
      rfl

/-- A walk below a directory is one for each subdirectory. -/
theorem walk_directory (h : (Entry.directory entries).WellNamed)
    (keep : List String → Bool) : filesOf keep [] (.directory entries) =
      (sortNames (ownNames entries)).map (fun name => [name]) ++
        (keptBelow keep entries).flatMap fun entry =>
          (filesOf (fun way => keep (entry.1 :: way)) [] entry.2).map
            (entry.1 :: ·) := by
  rw [filesOf_directory]
  congr 1
  cases h with
  | directory _ _ below =>
      refine List.flatMap_congr fun entry hentry => ?_
      have hmem : entry ∈ entries :=
        List.mem_of_mem_filter (List.mem_mergeSort.mp hentry)
      exact filesOf_place (below entry hmem) keep [entry.1]

theorem mem_ownNames {name : String} :
    name ∈ ownNames entries ↔ ∃ content, (name, .file content) ∈ entries := by
  unfold ownNames
  rw [List.mem_filterMap]
  constructor
  · rintro ⟨⟨n, e⟩, hmem, hn⟩
    cases e with
    | file content =>
        cases hn
        exact ⟨content, hmem⟩
    | directory inner => cases hn
  · rintro ⟨content, hmem⟩
    exact ⟨_, hmem, rfl⟩

theorem mem_keptBelow {entry : String × Entry} :
    entry ∈ keptBelow keep entries ↔
    entry ∈ entries ∧ entry.2.isDirectory = true ∧ keep [entry.1] = true := by
  unfold keptBelow
  rw [List.mem_mergeSort, List.mem_filter, Bool.and_eq_true]

theorem nil_notMem_walk (h : e.WellNamed) : [] ∉ filesOf keep [] e := by
  cases h with
  | file content =>
      rw [filesOf]
      exact List.not_mem_nil
  | directory once names below =>
      rw [walk_directory (.directory once names below)]
      simp

/-- Whether every directory on the way to a file is kept. -/
def OpenTo (keep : List String → Bool) (way : List String) : Prop :=
  ∀ dir rest, way = dir ++ rest → dir ≠ [] → rest ≠ [] → keep dir = true

theorem openTo_singleton (keep : List String → Bool) (name : String) :
    OpenTo keep [name] := by
  intro dir rest hway hdir hrest
  rcases List.append_eq_singleton_iff.mp hway.symm with ⟨rfl, -⟩ | ⟨-, rfl⟩
  · exact absurd rfl hdir
  · exact absurd rfl hrest

theorem openTo_cons {name : String} {way : List String} (hne : way ≠ []) :
    OpenTo keep (name :: way) ↔
      keep [name] = true ∧ OpenTo (fun way => keep (name :: way)) way := by
  constructor
  · intro h
    refine ⟨h [name] way rfl (List.cons_ne_nil _ _) hne,
      fun dir rest hway _ hrest => ?_⟩
    exact h (name :: dir) rest (congrArg (name :: ·) hway)
      (List.cons_ne_nil _ _) hrest
  · rintro ⟨hfirst, hinner⟩ dir rest hway hdir hrest
    cases dir with
    | nil => exact absurd rfl hdir
    | cons d dir =>
        obtain ⟨rfl, hbelow⟩ := List.cons.inj hway
        cases dir with
        | nil => exact hfirst
        | cons d' dir =>
            exact hinner (d' :: dir) rest hbelow (List.cons_ne_nil _ _) hrest

/-- A walk meets the files of a directory, and what it meets below those
that are kept. -/
theorem mem_walk_directory (h : (Entry.directory entries).WellNamed)
    {name : String} {way : List String} :
    name :: way ∈ filesOf keep [] (.directory entries) ↔
      (way = [] ∧ ∃ content, (name, .file content) ∈ entries) ∨
        ∃ inner, (name, inner) ∈ entries ∧ keep [name] = true ∧
          way ∈ filesOf (fun way => keep (name :: way)) [] inner := by
  rw [walk_directory h, List.mem_append]
  refine or_congr ?_ ?_
  · rw [List.mem_map, ← mem_ownNames]
    constructor
    · rintro ⟨n, hn, heq⟩
      obtain ⟨rfl, rfl⟩ := List.cons.inj heq
      exact ⟨rfl, List.mem_mergeSort.mp hn⟩
    · rintro ⟨rfl, hn⟩
      exact ⟨name, List.mem_mergeSort.mpr hn, rfl⟩
  · rw [List.mem_flatMap]
    constructor
    · rintro ⟨⟨n, inner⟩, hentry, hway⟩
      obtain ⟨rest, hrest, heq⟩ := List.mem_map.mp hway
      obtain ⟨rfl, rfl⟩ := List.cons.inj heq
      obtain ⟨hmem, -, hkeep⟩ := mem_keptBelow.mp hentry
      exact ⟨inner, hmem, hkeep, hrest⟩
    · rintro ⟨inner, hmem, hkeep, hway⟩
      refine ⟨(name, inner), mem_keptBelow.mpr ⟨hmem, ?_, hkeep⟩,
        List.mem_map_of_mem hway⟩
      cases inner with
      | directory _ => rfl
      | file content =>
          rw [filesOf] at hway
          exact absurd hway List.not_mem_nil

/-- A walk meets the files that every directory on the way is kept for. -/
theorem mem_walk (h : e.WellNamed) {way : List String} :
    way ∈ filesOf keep [] e ↔
    way ≠ [] ∧ (∃ content, e.at? way = some (.file content)) ∧
    OpenTo keep way := by
  -- by induction on the way: a file of the directory itself, or one that is met
  -- below an entry that is kept
  induction way generalizing e keep with
  | nil =>
      exact ⟨fun hm => absurd hm (nil_notMem_walk h), fun hm => absurd rfl hm.1⟩
  | cons name way ih =>
      rw [and_iff_right (List.cons_ne_nil name way)]
      cases h with
      | file content =>
          rw [filesOf]
          constructor
          · exact fun hm => absurd hm List.not_mem_nil
          · rintro ⟨⟨_, hm⟩, -⟩
            cases hm
      | @directory entries once names below =>
          rw [mem_walk_directory (.directory once names below)]
          simp only [Entry.at?_cons_eq_some once]
          by_cases hway : way = []
          · subst hway
            constructor
            · rintro (⟨-, content, hmem⟩ | ⟨inner, hmem, -, hnil⟩)
              · exact ⟨⟨content, _, hmem, rfl⟩, openTo_singleton keep name⟩
              · exact absurd hnil (nil_notMem_walk (below _ hmem))
            · rintro ⟨⟨content, inner, hmem, hfound⟩, -⟩
              cases hfound
              exact .inl ⟨rfl, content, hmem⟩
          · rw [openTo_cons hway]
            constructor
            · rintro (⟨hnil, -⟩ | ⟨inner, hmem, hkeep, hm⟩)
              · exact absurd hnil hway
              · obtain ⟨-, ⟨content, hfound⟩, hopen⟩ :=
                  (ih (below _ hmem)).mp hm
                exact ⟨⟨content, inner, hmem, hfound⟩, hkeep, hopen⟩
            · rintro ⟨⟨content, inner, hmem, hfound⟩, hkeep, hopen⟩
              exact .inr ⟨inner, hmem, hkeep,
                (ih (below _ hmem)).mpr ⟨hway, ⟨content, hfound⟩, hopen⟩⟩

/-! ## The order of what is met -/

theorem ownNames_nodup (once : (entries.map (·.1)).Nodup) :
    (ownNames entries).Nodup := by
  refine once.sublist ?_
  unfold ownNames
  induction entries with
  | nil => exact List.Sublist.slnil
  | cons entry entries ih =>
      have ih := ih (List.nodup_cons.mp once).2
      rw [List.filterMap_cons, List.map_cons]
      split
      · exact ih.cons _
      · next heq =>
          split at heq
          · cases heq
          · cases heq
            exact ih.cons_cons _

theorem keptBelow_increasing (once : (entries.map (·.1)).Nodup) :
    (keptBelow keep entries).Pairwise fun a b => a.1 < b.1 := by
  have hle : (keptBelow keep entries).Pairwise fun a b => a.1 ≤ b.1 :=
    (List.pairwise_mergeSort (names_trans Prod.fst)
      (names_total Prod.fst) _).imp of_decide_eq_true
  have hne : (keptBelow keep entries).Pairwise fun a b => a.1 ≠ b.1 := by
    have hkept := once.sublist (List.filter_sublist.map Prod.fst :
      ((entries.filter fun entry => entry.2.isDirectory && keep [entry.1]).map
        (·.1)).Sublist _)
    have hsorted := ((List.mergeSort_perm _ fun a b => decide (a.1 ≤ b.1)).map
      (Prod.fst (α := String) (β := Entry))).nodup_iff.mpr hkept
    exact List.pairwise_map.mp hsorted
  exact hle.imp₂ (fun _ _ => lt_of_le_of_ne) hne

/-- A walk meets files in order. -/
theorem walk_inOrder (h : e.WellNamed) (keep : List String → Bool) :
    (filesOf keep [] e).Pairwise Before := by
  induction h generalizing keep with
  | file content =>
      rw [filesOf]
      exact List.Pairwise.nil
  | @directory entries once names below ih =>
      have hmem : ∀ entry ∈ keptBelow keep entries,
          entry ∈ entries := fun entry hentry => (mem_keptBelow.mp hentry).1
      have hne : ∀ entry ∈ keptBelow keep entries,
          ∀ way ∈ filesOf (fun way => keep (entry.1 :: way)) [] entry.2,
            way ≠ [] :=
        fun entry hentry way hway hnil =>
          nil_notMem_walk (below entry (hmem entry hentry)) (hnil ▸ hway)
      rw [walk_directory (.directory once names below), List.pairwise_append]
      -- a directory's own files come before those further down, and those below
      -- one entry before those below the next
      refine ⟨?own, ?inner, ?between⟩
      case own =>
        have hsorted : (sortNames (ownNames entries)).Pairwise (· < ·) :=
          (sortNames_sorted _).imp₂ (fun _ _ => lt_of_le_of_ne)
            ((List.mergeSort_perm _ _).nodup_iff.mpr (ownNames_nodup once))
        exact List.pairwise_map.mpr (hsorted.imp .beside)
      case inner =>
        rw [List.pairwise_flatMap]
        refine ⟨fun entry hentry => ?_, ?_⟩
        · exact List.pairwise_map.mpr
            ((ih entry (hmem entry hentry) _).imp (.within entry.1))
        · refine (keptBelow_increasing once).imp_of_mem
            fun {a b} ha hb hlt => ?_
          intro way hway way' hway'
          obtain ⟨rest, hrest, rfl⟩ := List.mem_map.mp hway
          obtain ⟨rest', hrest', rfl⟩ := List.mem_map.mp hway'
          exact .apart hlt (hne a ha rest hrest) (hne b hb rest' hrest')
      case between =>
        intro way hway way' hway'
        obtain ⟨name, -, rfl⟩ := List.mem_map.mp hway
        obtain ⟨entry, hentry, hway'⟩ := List.mem_flatMap.mp hway'
        obtain ⟨rest, hrest, rfl⟩ := List.mem_map.mp hway'
        refine .above name ?_
        have hlong := List.length_pos_iff.mpr (hne entry hentry rest hrest)
        rw [List.length_cons]
        omega

end FileTree

/-! ## Paths below a root -/

namespace Path

variable {way base : List String} {slashes : String}

/-- The slashes that an absolute path starts with. -/
def IsRoot (slashes : String) : Prop := slashes = "/" ∨ slashes = "//"

theorem ofParts_append (hbase : base ≠ []) (hway : way ≠ []) :
    ofParts (base ++ way) = ofParts base ++ "/" ++ ofParts way := by
  induction base with
  | nil => exact absurd rfl hbase
  | cons n base ih =>
      by_cases hnil : base = []
      · subst hnil
        unfold ofParts
        rw [List.singleton_append, String.intercalate_cons_of_ne_nil hway,
          String.intercalate_singleton]
      · have hrest := ih hnil
        unfold ofParts at hrest ⊢
        rw [List.cons_append, String.intercalate_cons_of_ne_nil
          (by simp [hnil]), hrest, String.intercalate_cons_of_ne_nil hnil]
        simp only [String.append_assoc]

theorem inner_of_push {stack : List String} {part : String}
    (hpart : '/' ∉ part.toList) (h : ∀ n ∈ stack, Inner n) :
    ∀ n ∈ push true stack part, Inner n := by
  intro n hn
  unfold push at hn
  split at hn
  · exact h n hn
  · next hdot =>
      simp only [Bool.or_eq_true, String.isEmpty_iff, decide_eq_true_eq,
        not_or] at hdot
      split at hn
      · split at hn
        · cases hn
        · next top below =>
            split at hn
            · next hup => exact absurd hup (h top List.mem_cons_self).ne_up
            · exact h n (List.mem_cons_of_mem _ hn)
      · next hup =>
          rcases List.mem_cons.mp hn with rfl | hn
          · exact ⟨⟨hdot.1, hdot.2, hpart⟩, hup⟩
          · exact h n hn

/-- An absolute path is a way down from the root. -/
theorem absolute_eq (path : String) :
    ∃ slashes base, IsRoot slashes ∧ (∀ n ∈ base, Inner n) ∧
    absolute path = slashes ++ ofParts base := by
  have hstack : ∀ n ∈ (parts (join "/" path)).foldl (push true) [], Inner n :=
    List.foldlRecOn (motive := fun stack => ∀ n ∈ stack, Inner n) _ _
      (fun n hn => absurd hn List.not_mem_nil) fun stack hs part hpart =>
        inner_of_push (parts_whole hpart) hs
  have hroot := rootSlashes_of_isAbsolute (isAbsolute_join_root path)
  refine ⟨rootSlashes (join "/" path), _, hroot, fun n hn =>
    hstack n (List.mem_reverse.mp hn), ?_⟩
  unfold absolute normalize
  dsimp only
  rw [isAbsolute_join_root, if_neg]
  rcases hroot with hroot | hroot <;> simp [hroot]

theorem isAbsolute_slashes (h : IsRoot slashes) (path : String) :
    isAbsolute (slashes ++ path) = true := by
  unfold isAbsolute
  rcases h with rfl | rfl <;> simp

theorem rootSlashes_below (h : IsRoot slashes) (hbase : ∀ n ∈ base, Inner n) :
    rootSlashes (slashes ++ ofParts base) = slashes := by
  have hfirst : (ofParts base).toList.head? ≠ some '/' := by
    cases base with
    | nil => simp [ofParts]
    | cons n base =>
        have hrelative := isAbsolute_ofParts (List.cons_ne_nil n base) hbase
        unfold isAbsolute at hrelative
        exact of_decide_eq_false hrelative
  unfold rootSlashes
  rw [String.toList_append]
  cases hchars : (ofParts base).toList with
  | nil => rcases h with rfl | rfl <;> rfl
  | cons c cs =>
      rw [hchars] at hfirst
      have hc : c ≠ '/' := fun hc => hfirst (congrArg some hc)
      rcases h with rfl | rfl <;> simp [hc]

theorem steps_below (h : IsRoot slashes) (hbase : ∀ n ∈ base, Inner n) :
    steps (slashes ++ ofParts base) = base := by
  have hbelow : steps (ofParts base) = base := by
    cases base with
    | nil => rfl
    | cons n base => exact steps_ofParts (List.cons_ne_nil n base) hbase
  have hslash (path : String) : steps ("/" ++ path) = steps path := by
    rw [← String.empty_append (s := "/"), steps_append]
    rfl
  rcases h with rfl | rfl
  · rw [hslash, hbelow]
  · rw [show "//" = "/" ++ "/" from rfl, String.append_assoc, hslash,
      hslash, hbelow]

/-- A way down from the root is in normal form. -/
theorem absolute_below (h : IsRoot slashes) (hbase : ∀ n ∈ base, Inner n) :
    absolute (slashes ++ ofParts base) = slashes ++ ofParts base := by
  have hjoin : join "/" (slashes ++ ofParts base) = slashes ++
      ofParts base := by
    rw [join, if_pos (isAbsolute_slashes h _)]
  unfold absolute normalize
  dsimp only
  rw [hjoin, isAbsolute_slashes h, foldl_push_steps, steps_below h hbase,
    foldl_push_inner hbase, List.append_nil, List.reverse_reverse,
    rootSlashes_below h hbase, if_neg]
  rcases h with rfl | rfl <;> simp

theorem endsInSlash_below (slashes : String) (hne : base ≠ [])
    (hbase : ∀ n ∈ base, Inner n) :
    endsInSlash (slashes ++ ofParts base) = false := by
  obtain ⟨dirs, name, rfl⟩ := (List.eq_nil_or_concat' base).resolve_left hne
  have hname := hbase name (by simp)
  obtain ⟨cs, c, hchars⟩ :=
    (List.eq_nil_or_concat' name.toList).resolve_left fun hnil =>
    hname.ne_empty (String.toList_eq_nil_iff.mp hnil)
  have hc : c ≠ '/' := by
    rintro rfl
    exact hname.whole (by simp [hchars])
  unfold endsInSlash
  rw [ofParts_snoc, String.toList_append, String.toList_append,
    hchars, ← List.append_assoc, ← List.append_assoc, List.getLast?_concat]
  simpa using hc

theorem join_below (h : IsRoot slashes) (hbase : ∀ n ∈ base, Inner n)
    (hne : way ≠ []) (hway : ∀ n ∈ way, Inner n) :
    join (slashes ++ ofParts base) (ofParts way) = slashes ++ ofParts
    (base ++ way) := by
  rw [join, if_neg
    (by rw [isAbsolute_ofParts hne hway]; exact Bool.false_ne_true)]
  by_cases hnil : base = []
  · subst hnil
    rw [if_pos, List.nil_append]
    · exact congrArg (· ++ ofParts way) String.append_empty
    · rcases h with rfl | rfl <;> decide
  · rw [endsInSlash_below slashes hnil hbase, if_neg, ofParts_append hnil hne]
    · simp only [String.append_assoc]
    · rcases h with rfl | rfl <;> simp

/-- A path below an absolute one is absolute. -/
theorem absolute_join (root : String) (hne : way ≠ [])
    (hway : ∀ n ∈ way, Inner n) :
    absolute (join (absolute root) (ofParts way)) = join (absolute root)
    (ofParts way) := by
  obtain ⟨slashes, base, hroot, hbase, habsolute⟩ := absolute_eq root
  rw [habsolute, join_below hroot hbase hne hway]
  refine absolute_below hroot fun n hn => ?_
  rcases List.mem_append.mp hn with hn | hn
  · exact hbase n hn
  · exact hway n hn

/-- No two ways down lead along one path. -/
theorem join_ofParts_injective {root : String} {way' : List String}
    (hne : way ≠ []) (hway : ∀ n ∈ way, Inner n) (hne' : way' ≠ [])
    (hway' : ∀ n ∈ way', Inner n)
    (h : join root (ofParts way) = join root (ofParts way')) : way = way' := by
  have hnames := congrArg names h
  rwa [names_join root hne hway, names_join root hne' hway',
    List.append_cancel_left_eq] at hnames

theorem steps_directoryName_join (above : String) {name : String}
    (h : '/' ∉ name.toList) : steps (directoryName (above ++ "/" ++ name)) =
    steps above := by
  have hback : (above ++ "/" ++ name).toList.reverse =
      name.toList.reverse ++ '/' :: above.toList.reverse := by simp
  have hname : ∀ c ∈ name.toList.reverse, decide (c ≠ '/') = true := by
    intro c hc
    rw [decide_eq_true_eq]
    rintro rfl
    exact h (List.mem_reverse.mp hc)
  unfold directoryName
  dsimp only
  rw [hback, List.dropWhile_append_of_pos hname,
    List.dropWhile_cons_of_neg (by simp), List.dropWhile_cons_of_pos (by simp)]
  have hslashes : above.toList.reverse.takeWhile (· = '/') =
      List.replicate (above.toList.reverse.takeWhile (· = '/')).length '/' :=
    List.eq_replicate_iff.mpr
      ⟨rfl, fun c hc =>
        of_decide_eq_true (List.all_eq_true.mp List.all_takeWhile c hc)⟩
  have habove : above =
      String.ofList (above.toList.reverse.dropWhile (· = '/')).reverse ++
      String.ofList
        (List.replicate
          (above.toList.reverse.takeWhile (· = '/')).length '/') := by
    rw [← String.ofList_append, ← List.reverse_replicate, ← hslashes, ←
      List.reverse_append, List.takeWhile_append_dropWhile,
      List.reverse_reverse, String.ofList_toList]
  split
  · rw [List.reverse_cons, List.reverse_reverse, String.ofList_append,
      String.ofList_toList]
    exact steps_slash above
  · exact ((congrArg steps habove).trans (steps_slashes _ _)).symm

/-- The directory of a file below a root, seen from there. -/
theorem relative_directoryName (root : String) {dirs : List String}
    {name : String} (h : ∀ n ∈ dirs ++ [name], Inner n) :
    relative (directoryName (join (absolute root) (ofParts (dirs ++ [name]))))
      (absolute root) =
      if dirs = [] then "." else ofParts dirs := by
  obtain ⟨slashes, base, hroot, hbase, habsolute⟩ := absolute_eq root
  have hname : Inner name := h name (by simp)
  have hdirs : ∀ n ∈ dirs, Inner n :=
    fun n hn => h n (List.mem_append_left [name] hn)
  have hall : ∀ n ∈ base ++ dirs, Inner n := fun n hn =>
    (List.mem_append.mp hn).elim (hbase n) (hdirs n)
  have hsplit : ∃ above, slashes ++ ofParts (base ++ (dirs ++ [name])) =
      above ++ "/" ++ name ∧ steps above = base ++ dirs := by
    rw [← List.append_assoc]
    by_cases hnil : base ++ dirs = []
    · rw [hnil]
      have hsingle : ofParts [name] = name := String.intercalate_singleton
      rcases hroot with rfl | rfl
      · exact ⟨"", by rw [List.nil_append, hsingle]; rfl, rfl⟩
      · exact ⟨"/", by rw [List.nil_append, hsingle]; rfl, rfl⟩
    · refine ⟨slashes ++ ofParts (base ++ dirs), ?_, steps_below hroot hall⟩
      rw [ofParts_append hnil (List.cons_ne_nil name [])]
      simp [ofParts, String.append_assoc]
  obtain ⟨above, habove, hsteps⟩ := hsplit
  rw [habsolute, join_below hroot hbase (by simp) h, habove]
  unfold relative
  rw [names_eq, names_eq, steps_directoryName_join above hname.whole, hsteps,
    steps_below hroot hbase, foldl_push_inner hall, foldl_push_inner hbase,
    List.append_nil, List.append_nil, List.reverse_reverse,
    List.reverse_reverse, dropShared_append]
  cases dirs <;> rfl

end Path

/-- The package of the files in a directory, by the way to it from the root. -/
def packageAt (rootPackage : String) (dirs : List String) : String :=
  if dirs = [] then rootPackage else dashesToUnderscores (dotJoin dirs)

theorem packageName_directoryName (root rootPackage : String)
    {dirs : List String} {name : String}
    (h : ∀ n ∈ dirs ++ [name], Path.Inner n) : packageName (Path.absolute root)
        (Path.directoryName
          (Path.join (Path.absolute root) (Path.ofParts (dirs ++ [name]))))
        rootPackage = packageAt rootPackage dirs := by
  unfold packageName packageAt
  rw [Path.relative_directoryName root h]
  by_cases hnil : dirs = []
  · rw [if_pos hnil, if_pos hnil]
    rfl
  · have hdirs : ∀ n ∈ dirs, Path.Inner n :=
      fun n hn => h n (List.mem_append_left [name] hn)
    have hparts := Path.parts_ofParts hnil fun n hn => (hdirs n hn).whole
    rw [if_neg hnil, if_neg hnil]
    split
    · next hdot =>
        -- a way that is a dot would be a name that is one
        rw [hdot, show Path.parts "." = ["."] from rfl] at hparts
        exact absurd rfl
          (hdirs "." (hparts ▸ List.mem_singleton_self ".")).ne_dot
    · rw [hparts]

/-! ## Reading below a root -/

namespace FileTree

variable {t : FileTree} {root : String} {base way : List String}

theorem follow_inner {place : List String} (hway : ∀ n ∈ way, Path.Inner n)
    (hdir : ∀ dir rest, way = dir ++ rest → rest ≠ [] →
      t.IsDirectoryAt (place.reverse ++ dir)) :
    t.follow place way = .ok (way.reverse ++ place) := by
  induction way generalizing place with
  | nil =>
      rw [follow]
      rfl
  | cons name way ih =>
      have hfirst := hdir [] (name :: way) rfl (List.cons_ne_nil name way)
      rw [List.append_nil] at hfirst
      rw [follow_cons_eq_ok, step, if_neg (hway name List.mem_cons_self).ne_up]
      refine ⟨hfirst, ?_⟩
      rw [ih (fun n hn => hway n (List.mem_cons_of_mem name hn)),
        List.reverse_cons, List.append_assoc, List.singleton_append]
      intro dir rest hsplit hne
      rw [List.reverse_cons, List.append_assoc]
      exact hdir (name :: dir) rest (congrArg (name :: ·) hsplit) hne

/-- A file below a directory is read along the path of its way. -/
theorem read_below {content : List UInt8} (hroot : t.locate root = .ok base)
    (hne : way ≠ []) (hway : ∀ n ∈ way, Path.Inner n)
    (hfile : t.fileAt? (base ++ way) = some content) :
    t.read (Path.join root (Path.ofParts way)) = .ok content := by
  have hfound := fileAt?_eq_some.mp hfile
  have hlocate : t.locate (Path.join root (Path.ofParts way)) =
      .ok (base ++ way) := by
    rw [locate_eq_ok, Path.steps_join (Path.isAbsolute_ofParts hne hway),
      Path.steps_ofParts hne hway, follow_append_eq_ok]
    refine ⟨base.reverse, locate_eq_ok.mp hroot, ?_⟩
    rw [follow_inner hway, List.reverse_append]
    rintro dir rest rfl hrest
    rw [List.reverse_reverse]
    refine isDirectoryAt_of_below hrest ?_
    rw [List.append_assoc, hfound]
    exact Option.some_ne_none _
  unfold read
  rw [hlocate]
  dsimp only
  rw [hfound]

end FileTree

/-- What a file has to hold to be read as a source file. -/
def Readable (content : List UInt8) : Prop :=
  ∃ text tree, Text.decodeUtf8 content = .ok text ∧
    Syntax.readModule
      (String.ofList (Text.unifyLineEnds text.toList)) = .ok tree

/-- Whether a file can be read as a source file is found by reading it. -/
theorem readable_of_check {content : List UInt8}
    (h : ((Text.decodeUtf8 content).toOption.bind fun text =>
      (Syntax.readModule
        (String.ofList (Text.unifyLineEnds text.toList))).toOption).isSome =
        true) :
    Readable content := by
  obtain ⟨tree, htree⟩ := Option.isSome_iff_exists.mp h
  obtain ⟨text, htext, htree⟩ := Option.bind_eq_some_iff.mp htree
  exact ⟨text, tree, ok_of_toOption htext, ok_of_toOption htree⟩

theorem Readable.read {t : FileTree} {root path rootPackage : String}
    {content : List UInt8} (h : Readable content)
    (hread : t.read path = .ok content) :
    ∃ s, Source.read t root path rootPackage = .ok s := by
  obtain ⟨text, tree, htext, htree⟩ := h
  unfold Source.read Source.readText
  rw [hread]
  dsimp only
  rw [htext]
  dsimp only [bind, Except.bind]
  rw [htree]
  exact ⟨_, rfl⟩

namespace Program

/-! ## Grouping by package -/

/-- Tables that hold these files, each in its package and in their order. -/
structure Grouped (sources : List Source) (packages : Table SourcePackage) :
    Prop where
  once : packages.keys.Nodup
  keys : ∀ q, q ∈ packages.keys ↔ ∃ s ∈ sources, s.package = q
  files : ∀ q package, packages.get? q = some package →
    package.name = q ∧ package.files = sources.filter (·.package = q)

theorem Grouped.addFile {sources : List Source} {packages : Table SourcePackage}
    (h : Grouped sources packages) (s : Source) :
    Grouped (sources ++ [s]) (addFile packages s) := by
  refine ⟨Table.nodup_insert h.once _ _,
    fun q => ?_, fun q package hpackage => ?_⟩
  · unfold Program.addFile
    rw [Table.mem_keys_iff, Table.contains, Table.get?_insert]
    split
    · next hq => simp [hq]
    · next hq =>
        have hold := h.keys q
        rw [Table.mem_keys_iff, Table.contains] at hold
        rw [hold]
        constructor
        · rintro ⟨f, hf, rfl⟩
          exact ⟨f, List.mem_append_left [s] hf, rfl⟩
        · rintro ⟨f, hf, rfl⟩
          rcases List.mem_append.mp hf with hf | hf
          · exact ⟨f, hf, rfl⟩
          · exact absurd (congrArg Source.package (List.mem_singleton.mp hf)) hq
  · unfold Program.addFile at hpackage
    rw [Table.get?_insert] at hpackage
    rw [List.filter_append]
    split at hpackage
    · next hq =>
        subst hq
        cases hpackage
        have hlast :
            [s].filter (fun f => decide (f.package = s.package)) = [s] := by
            simp
        rw [hlast]
        cases hold : packages.get? s.package with
        | some old =>
            obtain ⟨hname, hfiles⟩ := h.files _ _ hold
            exact ⟨hname, congrArg (· ++ [s]) hfiles⟩
        | none =>
            -- a package that is new has no file before this one
            have hnone :
                sources.filter
                  (fun f => decide (f.package = s.package)) = [] := by
              rw [List.filter_eq_nil_iff]
              intro f hf hsame
              have hkey :=
                (h.keys s.package).mpr ⟨f, hf, of_decide_eq_true hsame⟩
              rw [Table.mem_keys_iff, Table.contains, hold] at hkey
              cases hkey
            rw [hnone]
            exact ⟨rfl, rfl⟩
    · next hq =>
        rw [List.filter_cons_of_neg (by simpa using Ne.symm hq),
          List.filter_nil, List.append_nil]
        exact h.files q package hpackage

theorem grouped_addFiles (sources : List Source) :
    Grouped sources (sources.foldl addFile .empty) := by
  induction sources using List.reverseRecOn with
  | nil =>
      refine ⟨Table.nodup_empty, fun q => ?_, fun q package h => by cases h⟩
      exact ⟨fun h => absurd h List.not_mem_nil, fun ⟨s, hs, _⟩ =>
        absurd hs List.not_mem_nil⟩
  | append_singleton sources s ih =>
      rw [List.foldl_append]
      exact ih.addFile s

end Program

/-! ## The files that are selected -/

/-- The path that a way from the root of a program leads along. -/
def Config.pathOf (config : Config) (way : List String) : String :=
  Path.join (Path.absolute config.root) (Path.ofParts way)

theorem Config.absolute_pathOf (config : Config) {way : List String}
    (hne : way ≠ []) (h : ∀ n ∈ way, Path.Inner n) :
    Path.absolute (config.pathOf way) = config.pathOf way :=
  Path.absolute_join config.root hne h

/-- A source file that a program is to hold, by the directories from the root to
it and its name. None of these directories is excluded, hidden or the one that
bindings go to. -/
structure Selected (t : FileTree) (config : Config) (base dirs : List String)
    (name : String) : Prop where
  file : ∃ content, t.fileAt? (base ++ (dirs ++ [name])) = some content
  source : ∃ stem, name = stem ++ ".py"
  admitted : ∀ above d below, dirs = above ++ d :: below →
    d ∉ config.excludeDirs ∧ d.toList.head? ≠ some '.' ∧
      Path.absolute (config.pathOf (above ++ [d])) ≠
      Path.absolute config.modulePath

/-- What a program of exactly the selected files is: each is in it once,
with its package, whose files are in the order of a walk; all files come
package by package. -/
structure Selects (t : FileTree) (config : Config) (base : List String)
    (p : Program) : Prop where
  paths : ∀ path, path ∈ p.files.map (·.path) ↔
    ∃ dirs name, Selected t config base dirs name ∧
    path = config.pathOf (dirs ++ [name])
  once : (p.files.map (·.path)).Nodup
  read : ∀ s ∈ p.files,
    Source.read t (Path.absolute config.root) s.path config.rootPackage = .ok s
  keys : ∀ q, q ∈ p.packages.keys ↔
    ∃ dirs name, Selected t config base dirs name ∧
    packageAt config.rootPackage dirs = q
  packages : ∀ q package, p.packages.get? q = some package → package.name = q ∧
    ∃ ways : List (List String), ways.Pairwise FileTree.Before ∧
      (∀ way, way ∈ ways ↔ ∃ dirs name, way = dirs ++ [name] ∧
        Selected t config base dirs name ∧
        packageAt config.rootPackage dirs = q) ∧
      package.files.map (·.path) = ways.map config.pathOf
  files : ∃ names : List String, names.Pairwise (· < ·) ∧
    (∀ q, q ∈ names ↔ q ∈ p.packages.keys) ∧
      p.files = names.flatMap fun q =>
        ((p.packages.get? q).map (·.files)).getD []
  entry : ∀ s, p.entryFile = some s ↔
    s ∈ p.files ∧ Path.absolute s.path = Path.absolute config.entryPath

namespace Program

variable {t : FileTree} {config : Config} {base dirs : List String}
    {name : String}

/-- The ways from the root to the source files of a program, as
they are walked. -/
def sourceWays (t : FileTree) (config : Config) : List (List String) :=
  (t.filesBelow (Path.absolute config.root)
    (admits config (Path.absolute config.root)
      (Path.absolute config.modulePath))).filter FileTree.IsSource

theorem sourcePaths_eq (t : FileTree) (config : Config) :
    sourcePaths t config = (sourceWays t config).map config.pathOf := rfl

/-- A directory is admitted if nothing keeps it out. -/
theorem admits_iff {above : List String} {d : String}
    (h : ∀ n ∈ above ++ [d], Path.Inner n) :
    admits config (Path.absolute config.root) (Path.absolute config.modulePath)
      (above ++ [d]) = true ↔ d ∉ config.excludeDirs ∧
      d.toList.head? ≠ some '.' ∧
        Path.absolute (config.pathOf (above ++ [d])) ≠
        Path.absolute config.modulePath := by
  rw [config.absolute_pathOf (by simp) h]
  unfold admits Config.pathOf
  rw [List.getLast?_concat, Option.getD_some]
  simp [and_assoc]

section Walked

variable {e : Entry} (hnames : t.root.WellNamed)
  (hroot : t.locate (Path.absolute config.root) = .ok base)
  (he : t.root.at? base = some e)

include hroot he in
theorem sourceWays_eq : sourceWays t config =
    (FileTree.filesOf
      (admits config (Path.absolute config.root)
        (Path.absolute config.modulePath))
      [] e).filter FileTree.IsSource := by
  unfold sourceWays FileTree.filesBelow FileTree.entry?
  rw [hroot]
  dsimp only
  rw [he]

include hnames in
theorem inner_of_selected (h : Selected t config base dirs name) :
    ∀ n ∈ dirs ++ [name], Path.Inner n := by
  obtain ⟨content, hfile⟩ := h.file
  intro n hn
  exact hnames.inner (FileTree.fileAt?_eq_some.mp hfile) n
    (List.mem_append_right base hn)

include hnames hroot he in
/-- The files that are walked are those that are selected. -/
theorem mem_sourceWays {way : List String} : way ∈ sourceWays t config ↔
    ∃ dirs name, way = dirs ++ [name] ∧ Selected t config base dirs name := by
  have hbelow : ∀ way, e.at? way = t.root.at? (base ++ way) := fun way => by
    rw [Entry.at?_append, he, Option.bind_some]
  rw [sourceWays_eq hroot he, List.mem_filter,
    FileTree.mem_walk (hnames.at? he)]
  constructor
  · rintro ⟨⟨hne, ⟨content, hfile⟩, hopen⟩, hsource⟩
    obtain ⟨dirs, name, rfl⟩ := (List.eq_nil_or_concat' way).resolve_left hne
    rw [hbelow] at hfile
    have hinner := hnames.inner hfile
    refine ⟨dirs, name, rfl, ⟨content, FileTree.fileAt?_eq_some.mpr hfile⟩,
      isSourceName_iff.mp (FileTree.isSource_append dirs name ▸ hsource), ?_⟩
    rintro above d below rfl
    refine (admits_iff fun n hn => hinner n ?_).mp
      (hopen (above ++ [d]) (below ++ [name]) (by simp) (by simp) (by simp))
    rw [List.append_cons above]
    exact List.mem_append_right base
      (List.mem_append_left _ (List.mem_append_left _ hn))
  · rintro ⟨dirs, name, rfl, hselected⟩
    have hinner := inner_of_selected hnames hselected
    obtain ⟨content, hfile⟩ := hselected.file
    refine ⟨⟨by simp,
      ⟨content, (hbelow _).trans (FileTree.fileAt?_eq_some.mp hfile)⟩, ?_⟩, ?_⟩
    · intro dir rest hway hdir hrest
      obtain ⟨above, d, rfl⟩ := (List.eq_nil_or_concat' dir).resolve_left hdir
      obtain ⟨behind, last, rfl⟩ :=
        (List.eq_nil_or_concat' rest).resolve_left hrest
      rw [hway] at hinner
      refine (admits_iff fun n hn =>
        hinner n (List.mem_append_left _ hn)).mpr ?_
      rw [← List.append_assoc] at hway
      obtain ⟨rfl, -⟩ := List.append_inj' hway rfl
      exact hselected.admitted above d behind (by simp)
    · rw [FileTree.isSource_append]
      exact isSourceName_iff.mpr hselected.source

include hnames hroot he in
theorem sourceWays_nodup : (sourceWays t config).Pairwise FileTree.Before := by
  rw [sourceWays_eq hroot he]
  exact (FileTree.walk_inOrder (hnames.at? he) _).filter _

include hnames hroot he in
theorem sourcePaths_nodup : (sourcePaths t config).Nodup := by
  rw [sourcePaths_eq]
  refine List.pairwise_map.mpr
    ((sourceWays_nodup hnames hroot he).imp_of_mem
      fun {way way'} hway hway' hbefore => ?_)
  obtain ⟨dirs, name, rfl, hselected⟩ :=
    (mem_sourceWays hnames hroot he).mp hway
  obtain ⟨dirs', name', rfl, hselected'⟩ :=
    (mem_sourceWays hnames hroot he).mp hway'
  exact fun hsame => hbefore.ne (Path.join_ofParts_injective (by simp)
    (inner_of_selected hnames hselected) (by simp)
    (inner_of_selected hnames hselected') hsame)

end Walked

/-! ## Loading -/

theorem readAll_complete {read : String → Except Fault Source}
    {paths : List String} (h : ∀ path ∈ paths, ∃ s, read path = .ok s) :
    ∃ sources, readAll read paths = (sources, none) := by
  induction paths with
  | nil => exact ⟨[], rfl⟩
  | cons path paths ih =>
      obtain ⟨s, hs⟩ := h path List.mem_cons_self
      obtain ⟨sources, hsources⟩ :=
        ih fun path hpath => h path (List.mem_cons_of_mem _ hpath)
      rw [readAll, hs, hsources]
      exact ⟨s :: sources, rfl⟩

theorem load_ok {sources : List Source}
    (hdir : t.isDirectory (Path.absolute config.root) = true)
    (h : readAll
      (fun path =>
        Source.read t (Path.absolute config.root) path config.rootPackage)
      (sourcePaths t config) = (sources, none)) :
    ∃ log, load t config = (.ok (ofSources config sources), log) := by
  unfold load
  dsimp only
  rw [hdir, h]
  exact ⟨_, rfl⟩

/-- Lists whose elements go together are filtered alike. -/
theorem filter_together {α β γ : Type} {R : α → β → Prop}
    {xs : List α} {ys : List β} {f : α → γ} {g : β → γ} {p : α → Bool}
    {q : β → Bool} (h : List.Forall₂ R xs ys)
    (hsame : ∀ a b, R a b → f a = g b ∧ p a = q b) :
    (ys.filter q).map g = (xs.filter p).map f := by
  induction h with
  | nil => rfl
  | cons hfirst _ ih =>
      obtain ⟨hvalue, htest⟩ := hsame _ _ hfirst
      rw [List.filter_cons, List.filter_cons, htest]
      split
      · rw [List.map_cons, List.map_cons, hvalue, ih]
      · exact ih

/-- The files of a program, package by package. -/
theorem files_eq (config : Config) (sources : List Source) :
    (ofSources config sources).files =
    ((ofSources config sources).packages.sorted.map (·.1)).flatMap
      fun q => (((ofSources config sources).packages.get? q).map
        (·.files)).getD [] := by
  have hnodup : (ofSources config sources).packages.keys.Nodup :=
    (grouped_addFiles sources).once
  unfold files sortedPackages
  rw [List.flatMap_map, List.flatMap_map]
  refine List.flatMap_congr fun entry hentry => ?_
  rw [Table.get?_of_mem hnodup (List.mem_mergeSort.mp hentry)]
  rfl

section Selects

variable {sources : List Source} {e : Entry} (hnames : t.root.WellNamed)
  (hroot : t.locate (Path.absolute config.root) = .ok base)
  (he : t.root.at? base = some e) (hread : List.Forall₂ (fun path s =>
    Source.read t (Path.absolute config.root) path config.rootPackage = .ok s)
      (sourcePaths t config) sources)

include hnames hroot he hread

/-- The files that have been read go along the ways, and each is in the
package of its way. -/
theorem sources_along : List.Forall₂ (fun way s => config.pathOf way = s.path ∧
    decide (packageAt config.rootPackage way.dropLast = q) =
    decide (s.package = q))
      (sourceWays t config) sources := by
  rw [sourcePaths_eq, List.forall₂_map_left_iff] at hread
  refine ((List.forall₂_and_left _ _).mpr
    ⟨fun way => (mem_sourceWays hnames hroot he).mp, hread⟩).imp ?_
  rintro way s ⟨⟨dirs, name, rfl, hselected⟩, hs⟩
  obtain ⟨hpath, -, -, hpackage⟩ := read_facts hs
  rw [List.dropLast_concat, hpackage, hpath]
  refine ⟨rfl, ?_⟩
  unfold Config.pathOf
  rw [packageName_directoryName _ _ (inner_of_selected hnames hselected)]

omit hnames hroot he in
theorem mem_sources_iff {s : Source} :
    s ∈ sources ↔ s.path ∈ sourcePaths t config ∧
    Source.read t (Path.absolute config.root) s.path
      config.rootPackage = .ok s := by
  constructor
  · intro hs
    obtain ⟨path, hpath, hok⟩ := forall₂_right hread hs
    rw [(read_facts hok).1]
    exact ⟨hpath, hok⟩
  · rintro ⟨hpath, hok⟩
    obtain ⟨s', hs', hok'⟩ := forall₂_left hread hpath
    rwa [Except.ok.inj (hok.symm.trans hok')]

omit hread in
theorem mem_sourcePaths {path : String} : path ∈ sourcePaths t config ↔
    ∃ dirs name, Selected t config base dirs name ∧ path = config.pathOf
    (dirs ++ [name]) := by
  rw [sourcePaths_eq, List.mem_map]
  constructor
  · rintro ⟨way, hway, rfl⟩
    obtain ⟨dirs, name, rfl, hselected⟩ :=
      (mem_sourceWays hnames hroot he).mp hway
    exact ⟨dirs, name, hselected, rfl⟩
  · rintro ⟨dirs, name, hselected, rfl⟩
    exact ⟨_, (mem_sourceWays hnames hroot he).mpr
      ⟨dirs, name, rfl, hselected⟩, rfl⟩

/-- The entry file is the one with the entry's path: no two files
share theirs. -/
theorem entryFile_eq_some {s : Source} :
    (ofSources config sources).entryFile = some s ↔
    s ∈ sources ∧ Path.absolute s.path = Path.absolute config.entryPath := by
  have hmem {f : Source} := mem_sources_iff hread (s := f)
  have habsolute {f : Source} (hf : f ∈ sources) :
      Path.absolute f.path = f.path := by
    obtain ⟨hpath, -⟩ := hmem.mp hf
    obtain ⟨dirs, name, hselected, hpath⟩ :=
      (mem_sourcePaths hnames hroot he).mp hpath
    rw [hpath]
    exact config.absolute_pathOf (by simp) (inner_of_selected hnames hselected)
  constructor
  · intro h
    have htest := List.find?_some h
    exact ⟨List.mem_of_find?_eq_some h, of_decide_eq_true htest⟩
  · rintro ⟨hs, hentry⟩
    have hsome : (ofSources config sources).entryFile.isSome = true :=
      List.find?_isSome.mpr ⟨s, hs, decide_eq_true hentry⟩
    obtain ⟨f, hf⟩ := Option.isSome_iff_exists.mp hsome
    have hfmem := List.mem_of_find?_eq_some hf
    have htest := List.find?_some hf
    have hsame : f.path = s.path := by
      rw [← habsolute hfmem, ← habsolute hs, hentry]
      exact of_decide_eq_true htest
    have hread_f := (hmem.mp hfmem).2
    rw [hsame, (hmem.mp hs).2] at hread_f
    rw [hf, Except.ok.inj hread_f]

/-- A package is there if a selected file is in it. -/
theorem mem_packages_keys {q : String} :
    q ∈ (ofSources config sources).packages.keys ↔
    ∃ dirs name, Selected t config base dirs name ∧
    packageAt config.rootPackage dirs = q := by
  have halong := sources_along (q := q) hnames hroot he hread
  rw [show q ∈ (ofSources config sources).packages.keys ↔
    _ from (grouped_addFiles sources).keys q]
  constructor
  · rintro ⟨s, hs, hpackage⟩
    obtain ⟨way, hway, -, hsame⟩ := forall₂_right halong hs
    obtain ⟨dirs, name, rfl, hselected⟩ :=
      (mem_sourceWays hnames hroot he).mp hway
    rw [List.dropLast_concat, decide_eq_decide] at hsame
    exact ⟨dirs, name, hselected, hsame.mpr hpackage⟩
  · rintro ⟨dirs, name, hselected, hpackage⟩
    have hway :=
      (mem_sourceWays hnames hroot he).mpr ⟨dirs, name, rfl, hselected⟩
    obtain ⟨s, hs, -, hsame⟩ := forall₂_left halong hway
    rw [List.dropLast_concat, decide_eq_decide] at hsame
    exact ⟨s, hs, hsame.mp hpackage⟩

/-- The files of a package go along the ways to them, in the
order of the walk. -/
theorem package_along {q : String} {package : SourcePackage}
    (h : (ofSources config sources).packages.get? q = some package) :
    ∃ ways : List (List String), ways.Pairwise FileTree.Before ∧
      (∀ way, way ∈ ways ↔ ∃ dirs name, way = dirs ++ [name] ∧
        Selected t config base dirs name ∧
        packageAt config.rootPackage dirs = q) ∧
      package.files.map (·.path) = ways.map config.pathOf := by
  refine ⟨(sourceWays t config).filter
    fun way => packageAt config.rootPackage way.dropLast = q, ?_,
    fun way => ?_, ?_⟩
  · exact (sourceWays_nodup hnames hroot he).filter _
  · rw [List.mem_filter, mem_sourceWays hnames hroot he, decide_eq_true_eq]
    constructor
    · rintro ⟨⟨dirs, name, rfl, hselected⟩, hq⟩
      rw [List.dropLast_concat] at hq
      exact ⟨dirs, name, rfl, hselected, hq⟩
    · rintro ⟨dirs, name, rfl, hselected, hq⟩
      exact ⟨⟨dirs, name, rfl, hselected⟩, by rwa [List.dropLast_concat]⟩
  · rw [((grouped_addFiles sources).files q package h).2]
    exact filter_together (sources_along hnames hroot he hread) fun way s h => h

/-- A program of all files that are walked holds those that are selected. -/
theorem selects_of_read : Selects t config base (ofSources config sources) := by
  have hgrouped := grouped_addFiles sources
  have hperm := files_perm config sources
  refine { paths := ?paths, once := ?once, read := ?read, keys := ?keys,
           packages := ?packages, files := ?files, entry := ?entry }
  case paths =>
    intro path
    rw [(hperm.map _).mem_iff, map_path hread, mem_sourcePaths hnames hroot he]
  case once =>
    rw [(hperm.map _).nodup_iff, map_path hread]
    exact sourcePaths_nodup hnames hroot he
  case read =>
    intro s hs
    exact ((mem_sources_iff hread).mp (hperm.mem_iff.mp hs)).2
  case keys => exact fun q => mem_packages_keys hnames hroot he hread
  case packages =>
    intro q package hpackage
    exact ⟨(hgrouped.files q package hpackage).1,
      package_along hnames hroot he hread hpackage⟩
  case files =>
    refine ⟨_, Table.increasing_sorted hgrouped.once,
      fun q => ?_, files_eq config sources⟩
    exact ((List.mergeSort_perm _ _).map _).mem_iff
  case entry =>
    intro s
    rw [entryFile_eq_some hnames hroot he hread, hperm.mem_iff]

end Selects

/-- From a tree whose selected files can be read, a program of exactly
these is loaded. -/
theorem load_selects {t : FileTree} {config : Config} {base : List String}
    (hnames : t.root.WellNamed)
    (hroot : t.locate (Path.absolute config.root) = .ok base)
    (hdir : t.IsDirectoryAt base)
    (hread : ∀ dirs name content, Selected t config base dirs name →
      t.fileAt? (base ++ (dirs ++ [name])) = some content → Readable content) :
    ∃ p log, load t config = (.ok p, log) ∧ Selects t config base p := by
  obtain ⟨entries, he⟩ := hdir
  have hall : ∀ path ∈ sourcePaths t config,
      ∃ s, Source.read t (Path.absolute config.root) path
        config.rootPackage = .ok s := by
    intro path hpath
    obtain ⟨dirs, name, hselected, rfl⟩ :=
      (mem_sourcePaths hnames hroot he).mp hpath
    obtain ⟨content, hfile⟩ := hselected.file
    exact (hread dirs name content hselected hfile).read
      (FileTree.read_below hroot (by simp)
        (inner_of_selected hnames hselected) hfile)
  obtain ⟨sources, hsources⟩ := readAll_complete hall
  obtain ⟨log, hload⟩ :=
    load_ok (FileTree.isDirectory_iff.mpr ⟨base, hroot, entries, he⟩) hsources
  have hpaths := readAll_paths (congrArg Prod.snd hsources)
  rw [hsources] at hpaths
  exact ⟨_, log, hload, selects_of_read hnames hroot he hpaths⟩

end Program

namespace Sample

/-- A program with a file in the root directory and one further down; what the
tests hold is not even Python. -/
def guardedTree : FileTree := ⟨.directory
  [("main.py", .file (Text.encodeUtf8 "def main():\n    pass\n")),
    ("app", .directory
      [("models.py", .file (Text.encodeUtf8 "class Note:\n    text: str\n"))]),
    ("tests", .directory [("broken.py", .file (Text.encodeUtf8 "def\n"))])]⟩

theorem guarded_wellNamed : guardedTree.root.WellNamed := by
  have hnames : ∀ name ∈ ["main.py", "app", "tests", "models.py", "broken.py"],
      Path.Inner name := by
    intro name hname
    refine ⟨⟨?_, ?_, ?_⟩, ?_⟩ <;> revert name <;> decide
  have hfile (name : String) (content : List UInt8)
      (hname : name ∈ ["main.py", "app", "tests", "models.py", "broken.py"]) :
      (Entry.directory [(name, .file content)]).WellNamed := by
    refine .directory (List.nodup_singleton name) ?_ ?_
    · exact fun entry hentry => List.mem_singleton.mp hentry ▸ hnames name hname
    · exact fun entry hentry => List.mem_singleton.mp hentry ▸ .file content
  refine .directory (by decide) ?_ ?_
  · simp only [List.forall_mem_cons]
    exact ⟨hnames _ (by decide), hnames _ (by decide), hnames _ (by decide),
      fun _ h => absurd h List.not_mem_nil⟩
  · simp only [List.forall_mem_cons]
    exact ⟨.file _, hfile _ _ (by decide), hfile _ _ (by decide),
      fun _ h => absurd h List.not_mem_nil⟩

theorem guarded_readable :
    Readable (Text.encodeUtf8 "def main():\n    pass\n") ∧
    Readable (Text.encodeUtf8 "class Note:\n    text: str\n") :=
  ⟨readable_of_check (by decide +kernel), readable_of_check (by decide +kernel)⟩

/-- The two files outside the tests are all that is selected, and
they are loaded. -/
theorem guarded_selects : guardedTree.root.WellNamed ∧
    guardedTree.locate (Path.absolute config.root) = .ok [] ∧
    guardedTree.IsDirectoryAt [] ∧
    (∀ dirs name content, Selected guardedTree config [] dirs name →
      guardedTree.fileAt? ([] ++ (dirs ++ [name])) = some content →
      Readable content) ∧
    ∃ p log, Program.load guardedTree config = (.ok p, log) ∧
    Selects guardedTree config [] p := by
  have hroot : guardedTree.locate (Path.absolute config.root) = .ok [] := by
    rw [crowded_paths.1]
    rfl
  have hdir : guardedTree.IsDirectoryAt [] := ⟨_, rfl⟩
  have hread : ∀ dirs name content, Selected guardedTree config [] dirs name →
      guardedTree.fileAt? ([] ++ (dirs ++ [name])) = some content →
      Readable content := by
    intro dirs name content hselected hfile
    have hfound := FileTree.fileAt?_eq_some.mp hfile
    cases dirs with
    | nil =>
        obtain ⟨inner, hmem, hinner⟩ :=
          (Entry.at?_cons_eq_some (by decide)).mp hfound
        simp only [List.mem_cons, List.not_mem_nil, or_false,
          Prod.mk.injEq] at hmem
        rcases hmem with ⟨-, rfl⟩ | ⟨-, rfl⟩ | ⟨-, rfl⟩ <;> cases hinner
        exact guarded_readable.1
    | cons d below =>
        obtain ⟨inner, hmem, hinner⟩ :=
          (Entry.at?_cons_eq_some (by decide)).mp hfound
        simp only [List.mem_cons, List.not_mem_nil, or_false,
          Prod.mk.injEq] at hmem
        rcases hmem with ⟨-, rfl⟩ | ⟨-, rfl⟩ | ⟨rfl, rfl⟩
        · cases below <;> cases hinner
        · cases below with
          | nil =>
              obtain ⟨model, hmodel, hcontent⟩ :=
                (Entry.at?_cons_eq_some (by decide)).mp hinner
              obtain ⟨-, rfl⟩ := Prod.mk.injEq .. ▸ List.mem_singleton.mp hmodel
              cases hcontent
              exact guarded_readable.2
          | cons d' below =>
              obtain ⟨model, hmodel, hcontent⟩ :=
                (Entry.at?_cons_eq_some (by decide)).mp hinner
              obtain ⟨-, rfl⟩ := Prod.mk.injEq .. ▸ List.mem_singleton.mp hmodel
              cases below <;> cases hcontent
        · exact absurd (by decide) (hselected.admitted [] "tests" below rfl).1
  exact ⟨guarded_wellNamed, hroot, hdir, hread,
    Program.load_selects guarded_wellNamed hroot hdir hread⟩

end Sample

end BridgeBindings
