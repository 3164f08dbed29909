import BridgeBindings.FileTree
import BridgeBindings.Proofs.Tables
import Mathlib.Logic.Relation

/-!
# How a file tree grows

Writers only ever add to a tree: a directory goes where nothing is, a file goes
where there is none or over one that is there, and both go into a directory. So
along any number of such changes every directory stays one, and every file stays
as it is unless it is written itself. This is all that later proofs need to know
of `put`, and it is proved of one change first and then carried along a run.
-/

namespace BridgeBindings

/-! ## Entries -/

namespace Table

variable {α : Type}

theorem lookup_eq_find (key : String) (es : List (String × α)) :
    es.lookup key = find key es := by
  induction es with
  | nil => rfl
  | cons e es ih =>
      obtain ⟨k, a⟩ := e
      rw [List.lookup_cons, find, ih]
      by_cases h : k = key
      · rw [if_pos h, h, beq_self_eq_true]
      · rw [if_neg h, beq_eq_false_iff_ne.mpr (Ne.symm h)]

theorem lookup_put (key other : String) (a : α) (es : List (String × α)) :
    (put key a es).lookup other = if other = key then some a
      else es.lookup other := by
  rw [lookup_eq_find, lookup_eq_find]
  exact get?_insert ⟨es⟩ key other a

/-- Giving a name the value that it has changes nothing. -/
theorem put_of_find {key : String} {a : α} {es : List (String × α)}
    (h : find key es = some a) : put key a es = es := by
  induction es with
  | nil => cases h
  | cons e es ih =>
      obtain ⟨k, b⟩ := e
      rw [find] at h
      rw [put]
      split at h
      · next hk =>
          cases h
          rw [if_pos hk]
      · next hk => rw [if_neg hk, ih h]

end Table

namespace Entry

theorem child?_put (e : Entry) (name : String) (names : List String)
    (value : Entry) (other : String) :
    (e.put (name :: names) value).child? other =
      if other = name then some (((e.child? name).getD empty).put names value)
      else e.child? other := by
  cases e with
  | file content => exact Table.lookup_put ..
  | directory entries => exact Table.lookup_put ..

theorem at?_append (e : Entry) (names below : List String) :
    e.at? (names ++ below) = (e.at? names).bind (·.at? below) := by
  induction names generalizing e with
  | nil => rfl
  | cons name names ih =>
      rw [List.cons_append, at?, at?, Option.bind_assoc]
      exact congrArg _ (funext fun inner => ih inner)

theorem at?_put_self (e : Entry) (names : List String) (value : Entry) :
    (e.put names value).at? names = some value := by
  induction names generalizing e with
  | nil => rfl
  | cons name names ih =>
      rw [at?, child?_put, if_pos rfl, Option.bind_some]
      exact ih _

theorem at?_put_below (e : Entry) (names below : List String) (value : Entry) :
    (e.put names value).at? (names ++ below) = value.at? below := by
  rw [at?_append, at?_put_self, Option.bind_some]

/-- What stands above an entry that has been put somewhere is a directory. -/
theorem at?_put_above (e : Entry) (names : List String) (name : String)
    (below : List String) (value : Entry) :
    ∃ entries, (e.put (names ++ name :: below) value).at? names =
    some (.directory entries) := by
  induction names generalizing e with
  | nil => exact ⟨_, rfl⟩
  | cons n names ih =>
      rw [List.cons_append, at?, child?_put, if_pos rfl, Option.bind_some]
      exact ih _

theorem at?_put_beside {names other : List String} (h : ¬names <+: other)
    (h' : ¬other <+: names) (e : Entry) (value : Entry) :
    (e.put names value).at? other = e.at? other := by
  induction names generalizing e other with
  | nil => exact absurd (List.nil_prefix) h
  | cons name names ih =>
      cases other with
      | nil => exact absurd (List.nil_prefix) h'
      | cons o other =>
          rw [at?, at?, child?_put]
          split
          · next ho =>
              rw [ho, List.cons_prefix_cons] at h h'
              have hrest := ih (fun hp => h ⟨rfl, hp⟩) (fun hp => h' ⟨rfl, hp⟩)
                ((e.child? name).getD empty)
              rw [ho, Option.bind_some, hrest]
              cases e.child? name with
              | some inner => rfl
              | none =>
                  -- what is looked for in a directory that is new is not there
                  cases other with
                  | nil => exact absurd ⟨rfl, List.nil_prefix⟩ h'
                  | cons o' other => rfl
          · rfl

/-- Putting an entry where it is already changes nothing. -/
theorem put_of_at? {e : Entry} {names : List String} {value : Entry}
    (h : e.at? names = some value) : e.put names value = e := by
  induction names generalizing e with
  | nil =>
      cases h
      rfl
  | cons name names ih =>
      obtain ⟨inner, hinner, hvalue⟩ := Option.bind_eq_some_iff.mp h
      cases e with
      | file content => cases hinner
      | directory entries =>
          have hlookup : entries.lookup name = some inner := hinner
          show directory
            (Table.put name (((entries.lookup name).getD empty).put names value)
            entries) = _
          rw [hlookup, Option.getD_some, ih hvalue,
            Table.put_of_find (Table.lookup_eq_find name entries ▸ hlookup)]

end Entry

/-! ## Places in a tree -/

namespace FileTree

/-- There is a directory at a place. -/
def IsDirectoryAt (t : FileTree) (place : List String) : Prop :=
  ∃ entries, t.root.at? place = some (.directory entries)

/-- The content of the file at a place, if there is one. -/
def fileAt? (t : FileTree) (place : List String) : Option (List UInt8) :=
  match t.root.at? place with
  | some (.file content) => some content
  | _ => none

/-- The tree with an entry put at a place. -/
def put (t : FileTree) (place : List String) (e : Entry) : FileTree :=
  ⟨t.root.put place e⟩

variable {t t' : FileTree} {place other : List String}
    {name : String} {e : Entry}

theorem fileAt?_eq_some {content : List UInt8} :
    t.fileAt? place = some content ↔ t.root.at? place = some
    (.file content) := by
  unfold fileAt?
  split
  · next h => rw [h, Option.some_inj, Option.some_inj, Entry.file.injEq]
  · next h => exact ⟨fun h' => (by cases h'), fun h' => absurd h' (h content)⟩

theorem IsDirectoryAt.fileAt? (h : t.IsDirectoryAt place) :
    t.fileAt? place = none := by
  obtain ⟨entries, h⟩ := h
  unfold FileTree.fileAt?
  rw [h]

/-- Whoever has something below is a directory. -/
theorem isDirectoryAt_of_below {below : List String} (hne : below ≠ [])
    (h : t.root.at? (place ++ below) ≠ none) : t.IsDirectoryAt place := by
  rw [Entry.at?_append] at h
  unfold IsDirectoryAt
  cases hplace : t.root.at? place with
  | none =>
      rw [hplace] at h
      exact absurd rfl h
  | some e =>
      cases e with
      | directory entries => exact ⟨entries, rfl⟩
      | file content =>
          rw [hplace, Option.bind_some] at h
          cases below with
          | nil => exact absurd rfl hne
          | cons name below => exact absurd rfl h

theorem IsDirectoryAt.above {below : List String}
    (h : t.IsDirectoryAt (place ++ below)) : t.IsDirectoryAt place := by
  cases below with
  | nil => rwa [List.append_nil] at h
  | cons name below =>
      obtain ⟨entries, h⟩ := h
      refine isDirectoryAt_of_below (List.cons_ne_nil name below) fun hnone =>
        ?_
      rw [h] at hnone
      cases hnone

/-! ## One change -/

section Put

variable (hplace : t.IsDirectoryAt place)
    (hfree : ¬t.IsDirectoryAt (place ++ [name]))

include hfree in
theorem IsDirectoryAt.put (h : t.IsDirectoryAt other) (e : Entry) :
    (t.put (place ++ [name]) e).IsDirectoryAt other := by
  by_cases habove : other <+: place ++ [name]
  · obtain ⟨below, hbelow⟩ := habove
    cases below with
    | nil =>
        rw [List.append_nil] at hbelow
        exact absurd (hbelow ▸ h) hfree
    | cons n below => exact hbelow ▸ Entry.at?_put_above t.root other n below e
  · by_cases hbelow : place ++ [name] <+: other
    · obtain ⟨below, rfl⟩ := hbelow
      exact absurd h.above hfree
    · obtain ⟨entries, h⟩ := h
      exact ⟨entries, (Entry.at?_put_beside hbelow habove t.root e).trans h⟩

include hplace hfree in
/-- Putting something with nothing below it leaves the files of all
other places. -/
theorem fileAt?_put (hother : other ≠ place ++ [name])
    (hbare : ∀ n below, e.at? (n :: below) = none) :
    (t.put (place ++ [name]) e).fileAt? other = t.fileAt? other := by
  -- on the way there are directories only, before and after, and below the
  -- place there has been nothing and is nothing
  by_cases habove : other <+: place ++ [name]
  · obtain ⟨below, hbelow⟩ := habove
    have hdir : t.IsDirectoryAt other := by
      rcases List.eq_nil_or_concat' below with rfl | ⟨below, n, rfl⟩
      · rw [List.append_nil] at hbelow
        exact absurd hbelow hother
      · rw [← List.append_assoc] at hbelow
        obtain ⟨rfl, -⟩ := List.append_inj' hbelow rfl
        exact hplace.above
    rw [hdir.fileAt?, (hdir.put hfree e).fileAt?]
  · by_cases hbelow : place ++ [name] <+: other
    · obtain ⟨below, rfl⟩ := hbelow
      have hne : below ≠ [] := by
        rintro rfl
        exact hother (List.append_nil _)
      have hold : t.root.at? (place ++ [name] ++ below) = none := by
        by_contra hsome
        exact hfree (isDirectoryAt_of_below hne hsome)
      obtain ⟨n, below, rfl⟩ := List.exists_cons_of_ne_nil hne
      have hnew : (t.put (place ++ [name]) e).root.at?
          (place ++ [name] ++ n :: below) = none :=
        (Entry.at?_put_below ..).trans (hbare n below)
      unfold fileAt?
      rw [hold, hnew]
    · have hsame : (t.put (place ++ [name]) e).root.at? other =
          t.root.at? other :=
        Entry.at?_put_beside hbelow habove t.root e
      unfold fileAt?
      rw [hsame]

end Put

/-- One change by a writer whose files go to certain places: an empty directory
where nothing was, or a file where no directory is, in a directory. -/
inductive Change (written : List String → Prop) (t : FileTree) : FileTree → Prop
  | directory {place : List String} {name : String}
      (hplace : t.IsDirectoryAt place)
      (hfree : t.root.at? (place ++ [name]) = none) :
      Change written t (t.put (place ++ [name]) .empty)
  | file {place : List String} {name : String} (content : List UInt8)
      (hplace : t.IsDirectoryAt place)
      (hfree : ¬t.IsDirectoryAt (place ++ [name]))
      (hwritten : written (place ++ [name])) :
      Change written t (t.put (place ++ [name]) (.file content))

variable {written : List String → Prop}

theorem not_isDirectoryAt_of_none (h : t.root.at? place = none) :
    ¬t.IsDirectoryAt place := by
  rintro ⟨entries, he⟩
  rw [h] at he
  cases he

theorem Change.isDirectoryAt (h : t.Change written t')
    (hdir : t.IsDirectoryAt other) : t'.IsDirectoryAt other := by
  cases h with
  | directory hplace hfree => exact hdir.put (not_isDirectoryAt_of_none hfree) _
  | file content hplace hfree hwritten => exact hdir.put hfree _

theorem Change.fileAt? (h : t.Change written t') (hother : ¬written other) :
    t'.fileAt? other = t.fileAt? other := by
  cases h with
  | @directory place name hplace hfree =>
      by_cases ho : other = place ++ [name]
      · have hnew : (t.put (place ++ [name]) .empty).root.at? other =
            some .empty :=
          ho ▸ Entry.at?_put_self ..
        unfold FileTree.fileAt?
        rw [hnew, ho, hfree]
        rfl
      · exact fileAt?_put hplace (not_isDirectoryAt_of_none hfree) ho fun _ _ =>
          rfl
  | file content hplace hfree hwritten =>
      exact fileAt?_put hplace hfree
        (fun ho => hother (ho ▸ hwritten)) fun _ _ => rfl

theorem Change.mono {more : List String → Prop}
    (hmore : ∀ place, written place → more place)
    (h : t.Change written t') : t.Change more t' := by
  cases h with
  | directory hplace hfree => exact .directory hplace hfree
  | file content hplace hfree hwritten =>
      exact .file content hplace hfree (hmore _ hwritten)

/-! ## A run of changes -/

/-- What any number of changes make of a tree. -/
abbrev Grows (written : List String → Prop) : FileTree → FileTree → Prop :=
  Relation.ReflTransGen (Change written)

theorem Grows.isDirectoryAt (h : Grows written t t')
    (hdir : t.IsDirectoryAt other) : t'.IsDirectoryAt other := by
  induction h with
  | refl => exact hdir
  | tail _ hc ih => exact hc.isDirectoryAt ih

/-- A run of changes leaves every file that is not written. -/
theorem Grows.fileAt? (h : Grows written t t') (hother : ¬written other) :
    t'.fileAt? other = t.fileAt? other := by
  induction h with
  | refl => rfl
  | tail _ hc ih => exact (hc.fileAt? hother).trans ih

theorem Grows.mono {more : List String → Prop}
    (hmore : ∀ place, written place → more place)
    (h : Grows written t t') : Grows more t t' :=
  Relation.ReflTransGen.mono (fun _ _ => Change.mono hmore) _ _ h

end FileTree

end BridgeBindings
