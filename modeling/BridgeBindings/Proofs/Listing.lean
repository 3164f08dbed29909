import BridgeBindings.Program
import BridgeBindings.Proofs.Places

/-!
# Listings of a tree that grows

A change that puts no source file anywhere leaves the listing of source files as
it was, wherever in the tree it is: the listing of a directory is made of what
each of its entries adds, the entry that changes adds the same as before, and
one that is new adds nothing. Listings are sorted, so an entry that adds nothing
must not show in the order of the others either; that is why sorting and
filtering have to commute.
-/

namespace BridgeBindings

/-! ## Sorting what was filtered -/

section Sorting

variable {α : Type} {le : α → α → Bool}

/-- There is one place where an element divides a list like this. -/
theorem division_unique {a : α} {before after before' after' : List α}
    (h : before ++ after = before' ++ after')
    (hb : ∀ b ∈ before, le a b = false) (ha : ∀ b ∈ after, le a b = true)
    (hb' : ∀ b ∈ before', le a b = false) (ha' : ∀ b ∈ after', le a b = true) :
    before = before' ∧ after = after' := by
  induction before generalizing before' with
  | nil =>
      cases before' with
      | nil => exact ⟨rfl, h⟩
      | cons b before' =>
          have hb := ha b (by rw [← List.nil_append after, h]; simp)
          rw [hb' b List.mem_cons_self] at hb
          cases hb
  | cons b before ih =>
      cases before' with
      | nil =>
          have ha := ha' b (by rw [← List.nil_append after', ← h]; simp)
          rw [hb b List.mem_cons_self] at ha
          cases ha
      | cons b' before' =>
          obtain ⟨rfl, hrest⟩ := List.cons.inj h
          obtain ⟨rfl, rfl⟩ :=
            ih hrest (fun c hc => hb c (List.mem_cons_of_mem _ hc))
            fun c hc => hb' c (List.mem_cons_of_mem _ hc)
          exact ⟨rfl, rfl⟩

variable (htrans : ∀ a b c, le a b = true → le b c = true → le a c = true)
  (htotal : ∀ a b, (le a b || le b a) = true)

include htrans htotal in
theorem filter_mergeSort (p : α → Bool) (xs : List α) :
    (xs.mergeSort le).filter p = (xs.filter p).mergeSort le := by
  induction xs with
  | nil => rw [List.filter_nil, List.mergeSort_nil, List.filter_nil]
  | cons a xs ih =>
      obtain ⟨before, after, hsort, hrest, hbefore⟩ :=
        List.mergeSort_cons htrans htotal a xs
      rw [hsort, List.filter_append]
      rw [hrest, List.filter_append] at ih
      by_cases ha : p a = true
      · obtain ⟨before', after', hsort', hrest', hbefore'⟩ :=
          List.mergeSort_cons htrans htotal a (xs.filter p)
        rw [List.filter_cons_of_pos ha, List.filter_cons_of_pos ha, hsort']
        have hafter : ∀ b ∈ after, le a b = true := by
          have hsorted := List.pairwise_mergeSort htrans htotal (a :: xs)
          rw [hsort] at hsorted
          exact (List.pairwise_cons.mp (List.pairwise_append.mp hsorted).2.1).1
        have hafter' : ∀ b ∈ after', le a b = true := by
          have hsorted := List.pairwise_mergeSort htrans htotal
            (a :: xs.filter p)
          rw [hsort'] at hsorted
          exact (List.pairwise_cons.mp (List.pairwise_append.mp hsorted).2.1).1
        obtain ⟨hb, ha⟩ := division_unique (a := a) (ih.trans hrest')
          (fun b hb => by simpa using hbefore b (List.mem_filter.mp hb).1)
          (fun b hb => hafter b (List.mem_filter.mp hb).1)
          (fun b hb => by simpa using hbefore' b hb) hafter'
        rw [hb, ha]
      · rw [List.filter_cons_of_neg ha, List.filter_cons_of_neg ha, ← ih]

end Sorting

theorem filter_sortNames (p : String → Bool) (names : List String) :
    (sortNames names).filter p = sortNames (names.filter p) :=
  filter_mergeSort (names_trans id) (names_total id) p names

/-- An entry that is replaced by one that counts the same, or that is new and
counts for nothing, does not show. -/
theorem Table.filterMap_put {α β : Type} {key : String} {a : α}
    {g : String × α → Option β} {es : List (String × α)}
    (hold : ∀ b, find key es = some b → g (key, b) = g (key, a))
    (hnew : find key es = none → g (key, a) = none) :
    (put key a es).filterMap g = es.filterMap g := by
  induction es with
  | nil =>
      rw [put, List.filterMap_cons_none (hnew rfl)]
  | cons e es ih =>
      obtain ⟨k, b⟩ := e
      rw [put]
      by_cases hk : k = key
      · subst hk
        rw [if_pos rfl]
        have hsame := hold b (if_pos rfl)
        rw [List.filterMap_cons, List.filterMap_cons, hsame]
      · rw [if_neg hk, List.filterMap_cons, List.filterMap_cons]
        have hrest :=
          ih (fun b hb => hold b (by rw [find, if_neg hk]; exact hb))
          fun hnone => hnew (by rw [find, if_neg hk]; exact hnone)
        rw [hrest]

/-! ## The sources below a directory -/

namespace FileTree

/-- Whether a place is that of a source file. -/
def IsSource (place : List String) : Bool :=
  Program.isSourceName (place.getLast?.getD "")

theorem isSource_append (place : List String) (name : String) :
    IsSource (place ++ [name]) = Program.isSourceName name := by
  unfold IsSource
  rw [List.getLast?_concat, Option.getD_some]

/-- The source files below an entry, as they are listed. -/
def sourcesOf (keep : List String → Bool) (place : List String) (e : Entry) :
    List (List String) :=
  (filesOf keep place e).filter IsSource

section Sources

variable {keep : List String → Bool} {place : List String}

/-- What an entry adds to the source files of its directory. -/
def ownSource (entry : String × Entry) : Option String :=
  if !entry.2.isDirectory && Program.isSourceName entry.1
    then some entry.1 else none

/-- What an entry adds to the source files further below its directory. -/
def innerSources (keep : List String → Bool) (place : List String)
    (entry : String × Entry) : Option (String × List (List String)) :=
  if entry.2.isDirectory && keep (place ++ [entry.1]) &&
    !(sourcesOf keep (place ++ [entry.1]) entry.2).isEmpty
  then some (entry.1, sourcesOf keep (place ++ [entry.1]) entry.2) else none

theorem innerFiles_sources (keep : List String → Bool) (place : List String)
    (entries : List (String × Entry)) :
    (((innerFiles keep place entries).map fun e =>
      (e.1, e.2.filter IsSource)).filter fun e => !e.2.isEmpty) =
        entries.filterMap (innerSources keep place) := by
  induction entries with
  | nil => rw [innerFiles]; rfl
  | cons entry entries ih =>
      obtain ⟨name, e⟩ := entry
      rw [innerFiles, List.filterMap_cons, ← ih]
      unfold innerSources
      dsimp only
      by_cases hkeep : (e.isDirectory && keep (place ++ [name])) = true
      · rw [if_pos hkeep, hkeep, Bool.true_and, List.map_cons, List.filter_cons]
        unfold sourcesOf
        dsimp only
        split <;> rfl
      · rw [if_neg hkeep, eq_false_of_ne_true hkeep, Bool.false_and,
          if_neg Bool.false_ne_true]

/-- Of the files of a directory itself, the sources are those with
the name of one. -/
theorem ownFiles_sources (place : List String) (files : List String) :
    ((sortNames files).map fun name => place ++ [name]).filter IsSource =
      (sortNames (files.filter Program.isSourceName)).map fun name =>
        place ++ [name] := by
  rw [List.filter_map, ← filter_sortNames]
  exact congrArg _ (List.filter_congr fun name _ => isSource_append place name)

/-- Subdirectories without sources do not show in the listing. -/
theorem sortedInner_sources (inner : List (String × List (List String))) :
    ((inner.mergeSort fun a b => decide (a.1 ≤ b.1)).flatMap (·.2)).filter
      IsSource =
      (((inner.map fun e => (e.1, e.2.filter IsSource)).filter fun e =>
        !e.2.isEmpty).mergeSort fun a b => decide (a.1 ≤ b.1)).flatMap
          (·.2) := by
  have hmap : (inner.mergeSort fun a b => decide (a.1 ≤ b.1)).map
      (fun e => (e.1, e.2.filter IsSource)) =
        (inner.map fun e => (e.1, e.2.filter IsSource)).mergeSort fun a b =>
          decide (a.1 ≤ b.1) :=
    List.map_mergeSort fun _ _ _ _ => rfl
  rw [← filter_mergeSort (names_trans Prod.fst) (names_total Prod.fst), ← hmap,
    List.filter_flatMap]
  induction inner.mergeSort fun a b => decide (a.1 ≤ b.1) with
  | nil => rfl
  | cons e rest ih =>
      rw [List.flatMap_cons, List.map_cons, List.filter_cons, ih]
      split
      · rfl
      · next hnone =>
          have hempty : e.2.filter IsSource = [] := by simpa using hnone
          rw [hempty, List.nil_append]

/-- The sources of a directory: its own by name, and those of its
subdirectories. -/
theorem sourcesOf_directory (keep : List String → Bool) (place : List String)
    (entries : List (String × Entry)) :
    sourcesOf keep place (.directory entries) =
      (sortNames (entries.filterMap ownSource)).map
        (fun name => place ++ [name]) ++
        ((entries.filterMap (innerSources keep place)).mergeSort
          fun a b => decide (a.1 ≤ b.1)).flatMap (·.2) := by
  unfold sourcesOf
  rw [filesOf]
  dsimp only
  rw [List.filter_append, ownFiles_sources, sortedInner_sources,
    innerFiles_sources, List.filter_filterMap]
  refine congrArg
    (fun names => (sortNames names).map (fun name => place ++ [name]) ++ _)
    (List.filterMap_congr fun entry _ => ?_)
  obtain ⟨name, e⟩ := entry
  cases e with
  | file content => simp [ownSource, Entry.isDirectory, Option.filter]
  | directory inner => rfl

/-- A directory lists the same if the entry that changes adds the same to it,
and adds nothing if it is new. -/
theorem sourcesOf_directory_put {name : String} {x : Entry}
    {entries : List (String × Entry)}
    (hold : ∀ old, Table.find name entries = some old →
      ownSource (name, old) = ownSource (name, x) ∧
        innerSources keep place (name, old) = innerSources keep place (name, x))
    (hnew : Table.find name entries = none →
      ownSource (name, x) = none ∧ innerSources keep place (name, x) = none) :
    sourcesOf keep place (.directory (Table.put name x entries)) =
      sourcesOf keep place (.directory entries) := by
  rw [sourcesOf_directory, sourcesOf_directory,
    Table.filterMap_put (fun old h => (hold old h).1) fun h => (hnew h).1,
    Table.filterMap_put (fun old h => (hold old h).2) fun h => (hnew h).2]

/-- Something that adds no source file wherever it is put. -/
def Silent (name : String) (e : Entry) : Prop :=
  e = .empty ∨ e.isDirectory = false ∧ Program.isSourceName name = false

theorem Silent.ownSource {name : String} {e : Entry} (h : Silent name e) :
    ownSource (name, e) = none := by
  unfold FileTree.ownSource
  rcases h with rfl | ⟨-, hname⟩
  · rfl
  · rw [hname, Bool.and_false, if_neg Bool.false_ne_true]

theorem Silent.innerSources {name : String} {e : Entry} (h : Silent name e)
    (keep : List String → Bool) (place : List String) :
    innerSources keep place (name, e) = none := by
  unfold FileTree.innerSources
  rcases h with rfl | ⟨hfile, -⟩
  · have hnone : sourcesOf keep (place ++ [name]) .empty = [] := by
      unfold Entry.empty
      rw [sourcesOf_directory]
      simp [sortNames]
    rw [hnone]
    simp
  · simp [hfile]

theorem isDirectory_of_at? {e : Entry} {below : List String}
    {entries : List (String × Entry)}
    (h : e.at? below = some (.directory entries)) : e.isDirectory = true := by
  cases e with
  | directory inner => rfl
  | file content =>
      cases below with
      | nil => cases h
      | cons name below => cases h

/-- What is put into a directory below and adds no source leaves the listing as
it was, if what it takes the place of has added none. -/
theorem sourcesOf_put {name : String} {x : Entry} (hx : Silent name x)
    {below : List String} {e : Entry} {entries : List (String × Entry)}
    (hdir : e.at? below = some (.directory entries))
    (hold : ∀ old, e.at? (below ++ [name]) = some old → Silent name old) :
    sourcesOf keep place (e.put (below ++ [name]) x) =
    sourcesOf keep place e := by
  -- down the way to the directory: above it only the entry on the way changes,
  -- and its sources stay by induction
  induction below generalizing place e with
  | nil =>
      cases hdir
      show sourcesOf keep place (.directory (Table.put name x entries)) = _
      refine sourcesOf_directory_put (fun old hfound => ?_) fun _ =>
        ⟨hx.ownSource, hx.innerSources keep place⟩
      have hsilent : Silent name old := by
        refine hold old ?_
        show (entries.lookup name).bind _ = some old
        rw [Table.lookup_eq_find, hfound]
        rfl
      rw [hsilent.ownSource, hx.ownSource, hsilent.innerSources,
        hx.innerSources]
      exact ⟨rfl, rfl⟩
  | cons n below ih =>
      obtain ⟨inner, hinner, hbelow⟩ := Option.bind_eq_some_iff.mp hdir
      cases e with
      | file content => cases hinner
      | directory es =>
          have hlookup : es.lookup n = some inner := hinner
          have hfind := Table.lookup_eq_find n es ▸ hlookup
          have hinside := isDirectory_of_at? hbelow
          have hput : (inner.put (below ++ [name]) x).isDirectory = true := by
            cases below <;> rfl
          have hsame :
              sourcesOf keep (place ++ [n]) (inner.put (below ++ [name]) x) =
              sourcesOf keep (place ++ [n]) inner :=
                ih hbelow fun old h => hold old (by
            rw [List.cons_append]
            exact Option.bind_eq_some_iff.mpr ⟨inner, hinner, h⟩)
          show sourcesOf keep place (.directory (Table.put n
            (((es.lookup n).getD .empty).put (below ++ [name]) x) es)) = _
          rw [hlookup, Option.getD_some]
          refine sourcesOf_directory_put (fun old hfound => ?_) fun hnone => ?_
          · obtain rfl : inner = old :=
              Option.some.inj (hfind.symm.trans hfound)
            unfold ownSource innerSources
            rw [hinside, hput, hsame]
            exact ⟨rfl, rfl⟩
          · rw [hfind] at hnone
            cases hnone

end Sources

/-! ## Listings of a tree that grows -/

theorem at?_put_within {e inner : Entry} {names : List String}
    (h : e.at? names = some inner) (below : List String) (x : Entry) :
    (e.put (names ++ below) x).at? names = some (inner.put below x) := by
  induction names generalizing e with
  | nil =>
      cases h
      rfl
  | cons name names ih =>
      obtain ⟨child, hchild, h⟩ := Option.bind_eq_some_iff.mp h
      rw [List.cons_append, Entry.at?, Entry.child?_put, if_pos rfl,
        Option.bind_some, hchild, Option.getD_some]
      exact ih h

variable {t t' : FileTree} {keep : List String → Bool} {base : List String}
  {written : List String → Prop}

theorem sources_put {place : List String} {name : String} {x : Entry}
    (hplace : t.IsDirectoryAt place)
    (hfree : ¬t.IsDirectoryAt (place ++ [name])) (hx : Silent name x)
    (hold : ∀ old, t.root.at? (place ++ [name]) = some old → Silent name old)
    (hbase : t.IsDirectoryAt base) :
    ((t.put (place ++ [name]) x).root.at? base).map (sourcesOf keep []) =
      (t.root.at? base).map (sourcesOf keep []) := by
  by_cases hinside : base <+: place
  · obtain ⟨below, rfl⟩ := hinside
    obtain ⟨entries, hbase⟩ := hbase
    obtain ⟨inner, hplace⟩ := hplace
    rw [Entry.at?_append, hbase, Option.bind_some] at hplace
    have hput : (t.put (base ++ below ++ [name]) x).root.at? base =
        some ((Entry.directory entries).put (below ++ [name]) x) := by
      rw [List.append_assoc]
      exact at?_put_within hbase (below ++ [name]) x
    rw [hput, hbase, Option.map_some, Option.map_some, sourcesOf_put hx hplace]
    intro old h
    refine hold old ?_
    rw [List.append_assoc, Entry.at?_append, hbase, Option.bind_some]
    exact h
  · have habove : ¬base <+: place ++ [name] := by
      rintro ⟨below, hbelow⟩
      rcases List.eq_nil_or_concat' below with rfl | ⟨below, n, rfl⟩
      · rw [List.append_nil] at hbelow
        exact hfree (hbelow ▸ hbase)
      · rw [← List.append_assoc] at hbelow
        obtain ⟨rfl, -⟩ := List.append_inj' hbelow rfl
        exact hinside (List.prefix_append base below)
    have hbelow : ¬place ++ [name] <+: base := by
      rintro ⟨below, rfl⟩
      exact hfree hbase.above
    have hsame : (t.put (place ++ [name]) x).root.at? base = t.root.at? base :=
      Entry.at?_put_beside hbelow habove t.root x
    rw [hsame]

theorem Change.sources (h : t.Change written t')
    (hwritten : ∀ place, written place → IsSource place = false)
    (hbase : t.IsDirectoryAt base) :
    (t'.root.at? base).map (sourcesOf keep []) = (t.root.at? base).map
    (sourcesOf keep []) := by
  cases h with
  | @directory place name hplace hfree =>
      refine sources_put hplace (not_isDirectoryAt_of_none hfree) (.inl rfl)
        (fun old h => ?_) hbase
      rw [hfree] at h
      cases h
  | @file place name content hplace hfree hw =>
      have hname := isSource_append place name ▸ hwritten _ hw
      refine sources_put hplace hfree (.inr ⟨rfl, hname⟩)
        (fun old h => .inr ⟨?_, hname⟩) hbase
      cases old with
      | file content => rfl
      | directory entries => exact absurd ⟨entries, h⟩ hfree

theorem Grows.sources (h : Grows written t t')
    (hwritten : ∀ place, written place → IsSource place = false)
    (hbase : t.IsDirectoryAt base) :
    (t'.root.at? base).map (sourcesOf keep []) = (t.root.at? base).map
    (sourcesOf keep []) := by
  induction h with
  | refl => rfl
  | tail hsteps hc ih =>
      exact (hc.sources hwritten (Grows.isDirectoryAt hsteps hbase)).trans ih

/-- A directory's sources are listed the same after any number of changes that
write no source file. -/
theorem Grows.sourcesBelow {directory : String} (h : Grows written t t')
    (hwritten : ∀ place, written place → IsSource place = false)
    (hdir : t.isDirectory directory = true) :
    (t'.filesBelow directory keep).filter IsSource =
    (t.filesBelow directory keep).filter IsSource := by
  obtain ⟨base, hl, hbase⟩ := isDirectory_iff.mp hdir
  have hsources : (t'.root.at? base).map (sourcesOf keep []) =
      (t.root.at? base).map (sourcesOf keep []) := h.sources hwritten hbase
  unfold filesBelow entry?
  rw [hl, h.locate hl]
  dsimp only
  cases hold : t.root.at? base with
  | none =>
      rw [hold, Option.map_none] at hsources
      rw [Option.map_eq_none_iff.mp hsources]
  | some e =>
      rw [hold, Option.map_some] at hsources
      obtain ⟨e', he', hsame⟩ := Option.map_eq_some_iff.mp hsources
      rw [he']
      exact hsame

end FileTree

end BridgeBindings
