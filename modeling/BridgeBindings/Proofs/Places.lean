import BridgeBindings.Proofs.Trees

/-!
# Where paths lead

A path counts by its steps, the parts that are neither empty nor a dot. Each
step goes on from a directory, so a path that leads somewhere leads there in
every tree that the first one grows into. That decides what the writers do: a
directory that was made is found again, a file that was written is there, and
making or writing the same once more changes nothing.
-/

namespace BridgeBindings

/-! ## Steps of a path -/

namespace Text

theorem splitOnChar_eq_splitOn (sep : Char) (cs : List Char) :
    splitOnChar sep cs = cs.splitOn sep := by
  induction cs with
  | nil => rfl
  | cons c cs ih =>
      have hcons := List.splitOnP_cons_eq_if_modifyHead (p := (· == sep)) c cs
      rw [splitOnChar, ih]
      unfold List.splitOn
      rw [hcons]
      by_cases h : c = sep
      · rw [if_pos h, if_pos (beq_iff_eq.mpr h)]
      · rw [if_neg h, if_neg (fun hb => h (beq_iff_eq.mp hb))]
        obtain ⟨part, parts, hparts⟩ := List.exists_cons_of_ne_nil
          (List.splitOnP_ne_nil (p := (· == sep)) cs)
        rw [hparts]
        rfl

theorem splitOnChar_append (sep : Char) (as bs : List Char) :
    splitOnChar sep (as ++ sep :: bs) = splitOnChar sep as ++
    splitOnChar sep bs := by
  simp only [splitOnChar_eq_splitOn]
  exact List.splitOnP_append_cons as bs (beq_self_eq_true sep)

theorem not_mem_of_mem_splitOnChar {sep : Char} {cs part : List Char}
    (h : part ∈ splitOnChar sep cs) : sep ∉ part := by
  induction cs generalizing part with
  | nil =>
      rw [List.mem_singleton.mp h]
      exact List.not_mem_nil
  | cons c cs ih =>
      rw [splitOnChar] at h
      split at h
      · rcases List.mem_cons.mp h with rfl | h
        · exact List.not_mem_nil
        · exact ih h
      · next hc =>
          split at h
          · rw [List.mem_singleton.mp h, List.mem_singleton]
            exact fun he => hc he.symm
          · next first parts hparts =>
              rw [hparts] at ih
              rcases List.mem_cons.mp h with rfl | h
              · rw [List.mem_cons, not_or]
                exact ⟨fun he => hc he.symm, ih List.mem_cons_self⟩
              · exact ih (List.mem_cons_of_mem _ h)

end Text

namespace Path

/-- A name that stands for itself as a part of a path. -/
structure Plain (name : String) : Prop where
  ne_empty : name ≠ ""
  ne_dot : name ≠ "."
  whole : '/' ∉ name.toList

/-- The parts of a path that lead somewhere. -/
def steps (path : String) : List String :=
  (parts path).filter fun part => !(part.isEmpty || part = ".")

theorem parts_whole {path part : String} (h : part ∈ parts path) :
    '/' ∉ part.toList := by
  obtain ⟨cs, hcs, rfl⟩ := List.mem_map.mp h
  rw [String.toList_ofList]
  exact Text.not_mem_of_mem_splitOnChar hcs

theorem parts_append (a b : String) :
    parts (a ++ "/" ++ b) = parts a ++ parts b := by
  unfold parts Text.split
  rw [String.append_assoc, String.toList_append, String.toList_append,
    show "/".toList = ['/'] from rfl, List.singleton_append,
    Text.splitOnChar_append, List.map_append]

theorem parts_of_whole {name : String} (h : '/' ∉ name.toList) :
    parts name = [name] := by
  unfold parts Text.split
  rw [Text.splitOnChar_eq_splitOn, List.splitOn_eq_singleton h,
    List.map_singleton, String.ofList_toList]

theorem Plain.parts_eq {name : String} (h : Plain name) : parts name = [name] :=
  parts_of_whole h.whole

theorem Plain.steps_eq {name : String} (h : Plain name) :
    steps name = [name] := by
  unfold steps
  rw [h.parts_eq, List.filter_cons_of_pos, List.filter_nil]
  simp [h.ne_empty, h.ne_dot]

theorem steps_append (a b : String) :
    steps (a ++ "/" ++ b) = steps a ++ steps b := by
  unfold steps
  rw [parts_append, List.filter_append]

theorem steps_slash (path : String) : steps (path ++ "/") = steps path := by
  rw [← String.append_empty (s := path ++ "/"), steps_append]
  exact List.append_nil _

/-- A path within a directory follows the one slash that the directory ends
with, if it has a name at all. -/
theorem join_cases {path : String} (h : isAbsolute path = false)
    (directory : String) : directory = "" ∧ join directory path = path ∨
      ∃ front, (directory = front ∨ directory = front ++ "/") ∧
        join directory path = front ++ "/" ++ path := by
  unfold join
  rw [h, if_neg Bool.false_ne_true]
  split
  · next hd =>
      rcases Bool.or_eq_true_iff.mp hd with hd | hd
      · rw [String.isEmpty_iff.mp hd]
        exact .inl ⟨rfl, String.empty_append⟩
      · obtain ⟨cs, hcs⟩ := List.getLast?_eq_some_iff.mp (of_decide_eq_true hd)
        have hdir : directory = String.ofList cs ++ "/" := by
          rw [← String.toList_inj, String.toList_append,
            String.toList_ofList, hcs]
          rfl
        exact .inr ⟨String.ofList cs, .inr hdir, by rw [hdir]⟩
  · exact .inr ⟨directory, .inl rfl, rfl⟩

theorem steps_join {path : String} (h : isAbsolute path = false)
    (directory : String) :
    steps (join directory path) = steps directory ++ steps path := by
  obtain ⟨rfl, hjoin⟩ | ⟨front, rfl | rfl, hjoin⟩ := join_cases h directory
  · rw [hjoin]
    rfl
  · rw [hjoin, steps_append]
  · rw [hjoin, steps_append, steps_slash]

theorem Plain.not_isAbsolute {name : String} (h : Plain name) :
    isAbsolute name = false :=
  decide_eq_false fun habsolute => h.whole (List.mem_of_mem_head? habsolute)

/-- A name within a directory is one step more. -/
theorem Plain.steps_join {name : String} (h : Plain name) (directory : String) :
    steps (join directory name) = steps directory ++ [name] := by
  rw [Path.steps_join h.not_isAbsolute, h.steps_eq]

theorem steps_slashes (path : String) (n : Nat) :
    steps (path ++ String.ofList (List.replicate n '/')) = steps path := by
  induction n with
  | zero => rw [List.replicate_zero, String.ofList_nil, String.append_empty]
  | succ n ih =>
      have hlast : path ++ String.ofList (List.replicate (n + 1) '/') =
          path ++ String.ofList (List.replicate n '/') ++ "/" := by
        rw [List.replicate_succ', String.ofList_append, String.append_assoc]
      rw [hlast, steps_slash, ih]

/-- The directory of a path is a way along its first steps. -/
theorem steps_directoryName (path : String) :
    steps (directoryName path) <+: steps path := by
  let back := path.toList.reverse
  have hback : back.takeWhile (· ≠ '/') ++ back.dropWhile (· ≠ '/') = back :=
    List.takeWhile_append_dropWhile
  have hfirst := List.head?_dropWhile_not (· ≠ '/') back
  unfold directoryName
  dsimp only
  show steps (String.ofList
      (if ((back.dropWhile (· ≠ '/')).dropWhile (· = '/')).isEmpty then
    (back.dropWhile (· ≠ '/')).reverse
    else ((back.dropWhile (· ≠ '/')).dropWhile (· = '/')).reverse)) <+:
    steps path
  generalize back.dropWhile (· ≠ '/') = head at hback hfirst ⊢
  generalize back.takeWhile (· ≠ '/') = last at hback
  cases head with
  | nil => exact List.nil_prefix
  | cons c head =>
      have hc : c = '/' := by simpa using hfirst
      subst hc
      -- what stands before the last slash: the directory, and slashes at its
      -- end
      let bare := head.dropWhile (· = '/')
      have hslashes : head.takeWhile (· = '/') =
          List.replicate (head.takeWhile (· = '/')).length '/' :=
        List.eq_replicate_iff.mpr
          ⟨rfl, fun c hc =>
            of_decide_eq_true (List.all_eq_true.mp List.all_takeWhile c hc)⟩
      have hhead : String.ofList head.reverse = String.ofList bare.reverse ++
          String.ofList
            (List.replicate (head.takeWhile (· = '/')).length '/') := by
        rw [← String.ofList_append, ← List.reverse_replicate, ← hslashes, ←
          List.reverse_append, List.takeWhile_append_dropWhile]
      have hbare : steps (String.ofList bare.reverse) =
          steps (String.ofList head.reverse) := by
        rw [hhead, steps_slashes]
      have hpath : path = String.ofList head.reverse ++ "/" ++
          String.ofList last.reverse := by
        have hchars : path.toList = back.reverse :=
          (List.reverse_reverse _).symm
        rw [← String.toList_inj, hchars, ← hback, List.reverse_append,
          List.reverse_cons, String.toList_append, String.toList_append,
          String.toList_ofList, String.toList_ofList]
        exact congrArg _ String.toList_ofList.symm
      have hwhole : steps (String.ofList ('/' :: head).reverse) =
          steps (String.ofList head.reverse) := by
        rw [List.reverse_cons, String.ofList_append]
        exact steps_slash _
      rw [List.dropWhile_cons_of_pos (by simp), hpath, steps_append]
      split
      · rw [hwhole]
        exact List.prefix_append ..
      · rw [hbare]
        exact List.prefix_append ..

end Path

/-! ## Following a path -/

namespace FileTree

variable {t t' : FileTree} {path directory name : String}
  {place names found : List String} {written : List String → Prop}

/-- Where a name leads from a place, both from the inside out. -/
def step (place : List String) (name : String) : List String :=
  if name = ".." then place.tail else name :: place

theorem follow_cons (t : FileTree) (place : List String) (name : String)
    (rest : List String) : t.follow place (name :: rest) =
      follow.enter t place fun place => t.follow (step place name) rest := by
  unfold step
  by_cases hup : name = ".."
  · subst hup
    rw [follow]
    rfl
  · have hname :
        (fun place =>
          t.follow (if name = ".." then place.tail else name :: place) rest) =
        fun place => t.follow (name :: place) rest :=
          funext fun _ => by rw [if_neg hup]
    rw [hname]
    cases rest with
    | nil =>
        rw [follow]
        · rfl
        · exact hup
    | cons next rest =>
        rw [follow]
        · exact hup
        · exact List.cons_ne_nil next rest

theorem enter_eq_ok {next : List String → Except FileFault (List String)} :
    follow.enter t place next = .ok found ↔ t.IsDirectoryAt place.reverse ∧
    next place = .ok found := by
  unfold follow.enter IsDirectoryAt
  split
  · next entries h => exact ⟨fun hn => ⟨⟨entries, h⟩, hn⟩, And.right⟩
  · next content h => exact ⟨fun hn => (by cases hn), fun hn => by
      obtain ⟨⟨entries, he⟩, -⟩ := hn
      rw [h] at he
      cases he⟩
  · next h =>
      exact ⟨fun hn => (by cases hn), fun hn =>
        absurd hn.1 (not_isDirectoryAt_of_none h)⟩

theorem follow_cons_eq_ok {rest : List String} :
    t.follow place (name :: rest) = .ok found ↔
      t.IsDirectoryAt place.reverse ∧
      t.follow (step place name) rest = .ok found := by
  rw [follow_cons, enter_eq_ok]

theorem follow_append_eq_ok {before after : List String} :
    t.follow place (before ++ after) = .ok found ↔
      ∃ inner, t.follow place before = .ok inner ∧
      t.follow inner after = .ok found := by
  induction before generalizing place with
  | nil => exact ⟨fun h => ⟨place, by rw [follow], h⟩, fun ⟨inner, h, h'⟩ => by
      rw [follow] at h
      cases h
      exact h'⟩
  | cons name before ih =>
      rw [List.cons_append, follow_cons_eq_ok, ih]
      constructor
      · rintro ⟨hdir, inner, h, h'⟩
        exact ⟨inner, follow_cons_eq_ok.mpr ⟨hdir, h⟩, h'⟩
      · rintro ⟨inner, h, h'⟩
        obtain ⟨hdir, h⟩ := follow_cons_eq_ok.mp h
        exact ⟨hdir, inner, h, h'⟩

theorem Grows.follow (h : Grows written t t')
    (hf : t.follow place names = .ok found) :
    t'.follow place names = .ok found := by
  induction names generalizing place with
  | nil =>
      rw [FileTree.follow] at hf ⊢
      exact hf
  | cons name rest ih =>
      obtain ⟨hdir, hf⟩ := follow_cons_eq_ok.mp hf
      exact follow_cons_eq_ok.mpr ⟨h.isDirectoryAt hdir, ih hf⟩

/-- What a path led to last stands in a directory. -/
theorem follow_above (hf : t.follow place names = .ok found)
    (hplace : place = [] ∨ t.IsDirectoryAt place.tail.reverse) :
    found = [] ∨ t.IsDirectoryAt found.tail.reverse := by
  induction names generalizing place with
  | nil =>
      rw [follow] at hf
      cases hf
      exact hplace
  | cons name rest ih =>
      obtain ⟨hdir, hf⟩ := follow_cons_eq_ok.mp hf
      refine ih hf ?_
      unfold step
      split
      · cases place with
        | nil => exact .inl rfl
        | cons n place =>
            cases place with
            | nil => exact .inl rfl
            | cons m place =>
                rw [List.reverse_cons, List.reverse_cons] at hdir
                exact .inr hdir.above.above
      · exact .inr hdir

theorem locate_eq_ok : t.locate path = .ok place ↔
    t.follow [] (Path.steps path) = .ok place.reverse := by
  show (t.follow [] (Path.steps path)).map List.reverse = .ok place ↔ _
  cases t.follow [] (Path.steps path) with
  | error f => exact ⟨fun h => (by cases h), fun h => (by cases h)⟩
  | ok found =>
      show Except.ok found.reverse = Except.ok place ↔ _
      rw [Except.ok.injEq, Except.ok.injEq]
      exact List.reverse_eq_iff

theorem Grows.locate (h : Grows written t t') (hl : t.locate path = .ok place) :
    t'.locate path = .ok place :=
  locate_eq_ok.mpr (h.follow (locate_eq_ok.mp hl))

/-! ## Making directories -/

theorem isDirectory_iff :
    t.isDirectory path = true ↔ ∃ place, t.locate path = .ok place ∧
    t.IsDirectoryAt place := by
  unfold isDirectory entry? IsDirectoryAt
  cases t.locate path with
  | error f => simp
  | ok place =>
      cases h : t.root.at? place with
      | none => simp [h]
      | some e => cases e <;> simp [h, Entry.isDirectory]

theorem Grows.isDirectory (h : Grows written t t')
    (hdir : t.isDirectory path = true) : t'.isDirectory path = true := by
  obtain ⟨place, hl, hdir⟩ := isDirectory_iff.mp hdir
  exact isDirectory_iff.mpr ⟨place, h.locate hl, h.isDirectoryAt hdir⟩

theorem isDirectory_directoryName (h : t.isDirectory path = true) :
    t.isDirectory (Path.directoryName path) = true := by
  obtain ⟨place, hl, hdir⟩ := isDirectory_iff.mp h
  obtain ⟨rest, hrest⟩ := Path.steps_directoryName path
  have hf := locate_eq_ok.mp hl
  rw [← hrest, follow_append_eq_ok] at hf
  obtain ⟨inner, hinner, hf⟩ := hf
  have habove : t.locate (Path.directoryName path) = .ok inner.reverse := by
    rw [locate_eq_ok, List.reverse_reverse]
    exact hinner
  refine isDirectory_iff.mpr ⟨inner.reverse, habove, ?_⟩
  cases rest with
  | nil =>
      rw [follow] at hf
      cases hf
      rwa [List.reverse_reverse]
  | cons name rest => exact (follow_cons_eq_ok.mp hf).1

theorem makeDirectory_effect (h : t.makeDirectory path = .ok t') :
    t.Change written t' ∧ t'.isDirectory path = true := by
  unfold makeDirectory at h
  split at h
  · cases h
  · next place hl =>
      split at h
      · cases h
      · next hnone =>
          cases h
          have hf := locate_eq_ok.mp hl
          have hne : place ≠ [] := by
            rintro rfl
            cases hnone
          obtain ⟨above, name, rfl⟩ :=
            (List.eq_nil_or_concat' place).resolve_left hne
          have habove : t.IsDirectoryAt above := by
            rcases follow_above hf (.inl rfl) with hnil | habove
            · simp at hnil
            · rwa [List.reverse_append, List.reverse_singleton,
                List.singleton_append, List.tail_cons,
                List.reverse_reverse] at habove
          have hchange : t.Change written (t.put (above ++ [name]) .empty) :=
            .directory habove hnone
          exact ⟨hchange,
            isDirectory_iff.mpr
              ⟨above ++ [name], Grows.locate (.single hchange) hl,
            [], Entry.at?_put_self ..⟩⟩

theorem makeEach_effect {paths : List String} (h : t.makeEach paths = .ok t') :
    Grows written t t' ∧ ∀ path ∈ paths.getLast?,
      t'.isDirectory path = true := by
  induction paths generalizing t with
  | nil =>
      cases h
      exact ⟨.refl, fun path hp => (by cases hp)⟩
  | cons path rest ih =>
      rw [makeEach] at h
      -- after the last path nothing more happens, so what is known of it then
      -- stays
      have hlast {u : FileTree} (hrest : u.makeEach rest = .ok t')
          (hdir : rest = [] → u.isDirectory path = true) :
          Grows written u t' ∧ ∀ p ∈ (path :: rest).getLast?,
            t'.isDirectory p = true := by
        obtain ⟨hgrows, hrest'⟩ := ih hrest
        refine ⟨hgrows, fun p hp => ?_⟩
        cases rest with
        | nil =>
            cases hp
            exact hgrows.isDirectory (hdir rfl)
        | cons next rest => exact hrest' p hp
      split at h
      · next u hu =>
          have hmade : t.Change written u ∧ u.isDirectory path = true :=
            makeDirectory_effect hu
          obtain ⟨hchange, hdir⟩ := hmade
          obtain ⟨hgrows, hp⟩ := hlast h fun _ => hdir
          exact ⟨.head hchange hgrows, hp⟩
      · split at h
        · cases h
        · next hdir =>
            refine hlast h fun hrest => ?_
            rw [hrest] at hdir
            simpa using hdir
      · split at h
        · next hdir => exact hlast h fun _ => hdir
        · cases h

theorem ancestors_eq (path : String) (fuel : Nat) :
    ∃ outer, ancestors path fuel = path :: outer ∧
      ∀ parent ∈ outer.head?, parent = Path.directoryName path := by
  cases fuel with
  | zero => exact ⟨[], rfl, fun _ h => (by cases h)⟩
  | succ fuel =>
      rw [ancestors]
      split
      · exact ⟨[], rfl, fun _ h => (by cases h)⟩
      · refine ⟨_, rfl, fun parent hparent => ?_⟩
        cases fuel with
        | zero => cases hparent; rfl
        | succ fuel =>
            rw [ancestors] at hparent
            split at hparent <;> · cases hparent; rfl

/-- What making a directory does to a tree, and that it is there then. -/
theorem makeDirectories_effect (h : t.makeDirectories path = .ok t') :
    Grows written t t' ∧ t'.isDirectory path = true := by
  obtain ⟨outer, houter, -⟩ := ancestors_eq path path.length
  unfold makeDirectories at h
  rw [houter] at h
  obtain ⟨hgrows, hdir⟩ := makeEach_effect h
  refine ⟨hgrows, hdir path ?_⟩
  rw [List.getLast?_reverse]
  rfl

/-- Making a directory that is there changes nothing. -/
theorem makeDirectories_again (h : t.isDirectory path = true) :
    t.makeDirectories path = .ok t := by
  obtain ⟨place, hl, entries, hdir⟩ := isDirectory_iff.mp h
  obtain ⟨outer, houter, hparent⟩ := ancestors_eq path path.length
  have hthere : outer.takeWhile (fun p => (t.entry? p).isNone) = [] := by
    cases outer with
    | nil => rfl
    | cons parent outer =>
        obtain ⟨above, hl', entries', hdir'⟩ :=
          isDirectory_iff.mp (isDirectory_directoryName h)
        have hentry : t.entry? parent = some (.directory entries') := by
          rw [hparent parent rfl]
          unfold entry?
          rw [hl']
          exact hdir'
        rw [List.takeWhile_cons_of_neg (by simp [hentry])]
  have hexists : t.makeDirectory path = .error .exists := by
    unfold makeDirectory
    rw [hl]
    dsimp only
    rw [hdir]
  unfold makeDirectories
  rw [houter]
  dsimp only
  rw [hthere, List.reverse_singleton, makeEach, hexists]
  dsimp only
  rw [h]
  rfl

/-! ## Writing files -/

/-- A name in a directory leads one step on from there. -/
theorem locate_join (hname : Path.Plain name) (hup : name ≠ "..") :
    t.locate (Path.join directory name) = .ok place ↔
      ∃ above, place = above ++ [name] ∧ t.locate directory = .ok above ∧
      t.IsDirectoryAt above := by
  rw [locate_eq_ok, hname.steps_join, follow_append_eq_ok]
  constructor
  · rintro ⟨inner, h, h'⟩
    obtain ⟨hdir, h'⟩ := follow_cons_eq_ok.mp h'
    rw [follow, step, if_neg hup, Except.ok.injEq] at h'
    refine ⟨inner.reverse, ?_,
      locate_eq_ok.mpr (by rwa [List.reverse_reverse]), hdir⟩
    rw [← List.reverse_cons, h', List.reverse_reverse]
  · rintro ⟨above, rfl, hl, hdir⟩
    refine ⟨above.reverse, locate_eq_ok.mp hl,
      follow_cons_eq_ok.mpr ⟨by rwa [List.reverse_reverse], ?_⟩⟩
    rw [follow, step, if_neg hup, List.reverse_append]
    rfl

theorem step_injective {p q : String} (h : step place p = step place q) :
    p = q := by
  have hlength (n : String) : place.tail ≠ n :: place := fun he => by
    have := congrArg List.length he
    rw [List.length_tail, List.length_cons] at this
    omega
  unfold step at h
  split at h <;> split at h
  · next hp hq => rw [hp, hq]
  · exact absurd h (hlength q)
  · exact absurd h.symm (hlength p)
  · exact (List.cons.inj h).1

/-- Files of two directories side by side are at two places. -/
theorem locate_inner_injective {p q f g : String} (hp : Path.Plain p)
    (hq : Path.Plain q) (hf : Path.Plain f) (hg : Path.Plain g)
    (hfup : f ≠ "..") (hgup : g ≠ "..")
    (h : t.locate (Path.join (Path.join directory p) f) = .ok place)
    (h' : t.locate (Path.join (Path.join directory q) g) = .ok place) :
    p = q ∧ f = g := by
  obtain ⟨above, rfl, habove, -⟩ := (locate_join hf hfup).mp h
  obtain ⟨above', heq, habove', -⟩ := (locate_join hg hgup).mp h'
  obtain ⟨rfl, hname⟩ := List.append_inj' heq rfl
  refine ⟨?_, List.singleton_inj.mp hname⟩
  rw [locate_eq_ok, hp.steps_join, follow_append_eq_ok] at habove
  rw [locate_eq_ok, hq.steps_join, follow_append_eq_ok] at habove'
  obtain ⟨inner, hinner, hlast⟩ := habove
  obtain ⟨inner', hinner', hlast'⟩ := habove'
  obtain rfl : inner = inner' := Except.ok.inj (hinner.symm.trans hinner')
  have hplace := (follow_cons_eq_ok.mp hlast).2
  have hplace' := (follow_cons_eq_ok.mp hlast').2
  rw [follow] at hplace hplace'
  exact step_injective (Except.ok.inj (hplace.trans hplace'.symm))

theorem write_effect {content : List UInt8} (hname : Path.Plain name)
    (hup : name ≠ "..")
    (h : t.write (Path.join directory name) content = .ok t') :
    ∃ place, t'.locate (Path.join directory name) = .ok place ∧
    t.Change (· = place) t' ∧
      t'.root.at? place = some (.file content) := by
  unfold write at h
  split at h
  · cases h
  · next place hl =>
      obtain ⟨above, rfl, -, habove⟩ := (locate_join hname hup).mp hl
      split at h
      · cases h
      · next hfree =>
          cases h
          have hchange :
              t.Change (· = above ++ [name])
                (t.put (above ++ [name]) (.file content)) :=
            .file content habove (fun ⟨entries, he⟩ => hfree entries he) rfl
          exact ⟨above ++ [name], Grows.locate (.single hchange) hl, hchange,
            Entry.at?_put_self ..⟩

/-- A file is written wherever a path leads, unless to a directory. -/
theorem write_eq {content : List UInt8} (hl : t.locate path = .ok place)
    (hfree : ¬t.IsDirectoryAt place) :
    t.write path content = .ok (t.put place (.file content)) := by
  unfold write
  rw [hl]
  dsimp only
  split
  · next entries h => exact absurd ⟨entries, h⟩ hfree
  · rfl

/-- Writing what is there changes nothing. -/
theorem write_again {content : List UInt8} (hl : t.locate path = .ok place)
    (h : t.root.at? place = some (.file content)) :
    t.write path content = .ok t := by
  unfold write
  rw [hl]
  dsimp only
  rw [h]
  exact congrArg (fun root => Except.ok (FileTree.mk root)) (Entry.put_of_at? h)

end FileTree

end BridgeBindings
