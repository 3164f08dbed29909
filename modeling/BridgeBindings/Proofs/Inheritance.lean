import BridgeBindings.Proofs.Lineage
import BridgeBindings.Proofs.Requests

/-!
# The fields that a class has by the text

A class has the fields of its bases in their order and then its own, and a name
that comes again stays where it came first. Whether a struct gets these fields
when its class is resolved depends on the stage that the bases are in: a base
that is being resolved hands on nothing. That can happen only if the base leads
back to the class, so a class has all its fields in every run if no base in its
hierarchy does that. The invariant that carries this over a run is that whatever
is being resolved leads to what is resolved next.
-/

namespace BridgeBindings

open Syntax Relation

/-! ## Names of fields -/

/-- The names of the fields that a class has, in their order: those of each
base, then its own, each where it comes first. A class that inherits from itself
has no such list. -/
inductive Symbols.Lists (t : Symbols) : ProgramClass → List String → Prop where
  | of {c : ProgramClass} {names : ProgramClass → List String}
      (bases : ∀ b ∈ t.bases c, Symbols.Lists t b (names b)) :
      Symbols.Lists t c
        ((t.bases c).flatMap names ++ c.decl.fields.map (·.name)).eraseDups

theorem Symbols.Lists.unique {t : Symbols} {c : ProgramClass}
    {xs ys : List String} (hx : t.Lists c xs) (hy : t.Lists c ys) :
    xs = ys := by
  induction hx generalizing ys with
  | @of c names bases ih =>
      cases hy with
      | @of _ names' bases' =>
          rw [List.flatMap_congr fun b hb => ih b hb (bases' b hb)]

/-- Names that are added to others, each where it comes first. -/
def gather (names more : List String) : List String :=
  more.foldl (fun names n => if n ∈ names then names else names ++ [n]) names

theorem gather_append (names xs ys : List String) :
    gather names (xs ++ ys) = gather (gather names xs) ys := List.foldl_append

theorem eraseDups_of_nodup {names : List String} (h : names.Nodup) :
    names.eraseDups = names := by
  induction names with
  | nil => rfl
  | cons n names ih =>
      obtain ⟨hn, hrest⟩ := List.nodup_cons.mp h
      have hkept : names.filter (fun b => !b == n) = names := by
        rw [List.filter_eq_self]
        intro m hm
        simp only [Bool.not_eq_true', beq_eq_false_iff_ne]
        rintro rfl
        exact hn hm
      rw [List.eraseDups_cons, hkept, ih hrest]

theorem gather_eq {names : List String} (h : names.Nodup) (more : List String) :
    gather names more = (names ++ more).eraseDups := by
  induction more generalizing names with
  | nil =>
      rw [List.append_nil, eraseDups_of_nodup h]
      rfl
  | cons n more ih =>
      show gather (if n ∈ names then names else names ++ [n]) more = _
      split
      · next hn =>
          rw [ih h, List.eraseDups_append, List.eraseDups_append]
          simp [List.removeAll, hn]
      · next hn =>
          have hsnoc : (names ++ [n]).Nodup := by
            rw [← List.concat_eq_append]
            exact h.concat hn
          rw [ih hsnoc, List.append_assoc, List.singleton_append]

/-! ## Tables of fields -/

/-- The names of fields, in order. -/
def fieldNames (fields : List StructField) : List String := fields.map (·.name)

namespace Table

variable {α : Type}

theorem keys_insert (t : Table α) (key : String) (a : α) :
    (t.insert key a).keys = if key ∈ t.keys then t.keys else t.keys ++ [key] :=
  put_keys key a t.entries

theorem keys_insertNew (t : Table α) (key : String) (a : α) :
    (t.insertNew key a).keys = if key ∈ t.keys then t.keys
      else t.keys ++ [key] := by
  unfold insertNew
  split
  · next h => rw [if_pos (mem_keys_iff.mpr h)]
  · next h => rw [keys_insert]

end Table

/-- A table in which each field stands under its own name. -/
def Named (fields : Table StructField) : Prop :=
  ∀ e ∈ fields.entries, e.2.name = e.1

theorem Named.values {fields : Table StructField} (h : Named fields) :
    fieldNames fields.values = fields.keys := by
  simp only [fieldNames, Table.values, Table.keys, List.map_map]
  exact List.map_congr_left h

theorem Named.insert {fields : Table StructField} (h : Named fields)
    (f : StructField) : Named (fields.insert f.name f) := by
  intro e he
  rcases Table.mem_insert he with rfl | he
  · rfl
  · exact h e he

theorem Named.inherit {fields : Table StructField} (h : Named fields)
    (inherited : List StructField) : Named (inheritFields fields inherited) ∧
      (inheritFields fields inherited).keys = gather fields.keys
      (fieldNames inherited) := by
  induction inherited generalizing fields with
  | nil => exact ⟨h, rfl⟩
  | cons f inherited ih =>
      have hnext : Named (fields.insertNew f.name f) := by
        unfold Table.insertNew
        split
        · exact h
        · exact h.insert f
      obtain ⟨hnamed, hkeys⟩ := ih hnext
      refine ⟨hnamed, hkeys.trans ?_⟩
      rw [Table.keys_insertNew]
      rfl

/-! ## Classes that no base leads back to -/

namespace Symbols

/-- No base in the hierarchy of a class leads back to the class that it
is a base of. -/
def Straight (t : Symbols) (c : ProgramClass) : Prop :=
  ∀ d, t.Inherits c d → ∀ b ∈ t.bases d, ¬t.Reaches (.cls b) (.cls d)

theorem Straight.base {t : Symbols} {c b : ProgramClass} (h : t.Straight c)
    (hb : b ∈ t.bases c) : t.Straight b :=
  fun d hd => h d (.head hb hd)

end Symbols

/-! ## The invariant -/

namespace Store

/-- The struct of a class is registered for the class itself. -/
def Owns (s : Store) (c : ProgramClass) : Prop :=
  ∃ st, s.get? c.key = some st ∧ st.module = c.module

/-- No struct of one of these classes is registered for another class. -/
def Respects (s : Store) (own : ProgramClass → Prop) : Prop :=
  ∀ c, own c → ∀ st, s.get? c.key = some st → st.module = c.module

theorem Owns.later {a b : Store} {c : ProgramClass} (h : a.Preserves b)
    (hc : a.Owns c) : b.Owns c := by
  obtain ⟨st, hst, hmodule⟩ := hc
  obtain ⟨st', hst', hsame⟩ := h.registered c.key st hst
  exact ⟨st', hst', hsame.trans hmodule⟩

/-- What is registered for another class stays so. -/
theorem Respects.earlier {a b : Store} {own : ProgramClass → Prop}
    (h : a.Preserves b) (hb : b.Respects own) : a.Respects own := by
  intro c hc st hst
  obtain ⟨st', hst', hsame⟩ := h.registered c.key st hst
  exact hsame.symm.trans (hb c hc st' hst')

theorem respects_owns (s : Store) : s.Respects s.Owns := by
  rintro c ⟨st, hst, hmodule⟩ st' hst'
  rw [hst] at hst'
  cases hst'
  exact hmodule

end Store

/-- The structs that have their fields have those of their classes, as far as no
base leads back and no name in the hierarchy belongs to another class. -/
def Faithful (t : Symbols) (own : ProgramClass → Prop) (s : Store) : Prop :=
  s.Respects own → ∀ c, t.Declares c → t.Straight c →
    (∀ d, t.Inherits c d → own d) → s.IsResolved c.key →
      ∃ st, s.get? c.key = some st ∧ t.Lists c (fieldNames st.fields)

/-- Every class that is being resolved leads to what is resolved next. -/
def LedTo (t : Symbols) (item : Item) (s : Store) : Prop :=
  ∀ k ∈ s.classes, ∃ d, t.Declares d ∧ d.key = k ∧ s.Owns d ∧
    t.Reaches (.cls d) item

/-- Resolving keeps structs faithful. -/
def keeping (t : Symbols) (own : ProgramClass → Prop) (n : Nat) : Contract where
  holds s := (tending t AnyClass n).holds s ∧ Faithful t own s
  leads := (tending t AnyClass n).leads
  refl := (tending t AnyClass n).refl
  trans := (tending t AnyClass n).trans

section Invariant

variable {t : Symbols} {own : ProgramClass → Prop} {n : Nat}
    {s s' : Store} {item : Item}

theorem LedTo.lead {a b : Item} (hl : t.Leads a b) (h : LedTo t a s) :
    LedTo t b s := by
  intro k hk
  obtain ⟨d, hd, hkey, howns, hreach⟩ := h k hk
  exact ⟨d, hd, hkey, howns, hreach.tail hl⟩

theorem LedTo.later (h : s.Preserves s') (hs : LedTo t item s) :
    LedTo t item s' := by
  intro k hk
  rw [h.classes] at hk
  obtain ⟨d, hd, hkey, howns, hreach⟩ := hs k hk
  exact ⟨d, hd, hkey, howns.later h, hreach⟩

theorem stable_ledTo : (keeping t own n).Stable (LedTo t item) :=
  fun hl h => h.later (preserves_of_grows hl.1 hl.2)

/-- Only structs and what is resolved matter. -/
theorem Faithful.alike (h : Faithful t own s)
    (hstructs : ∀ k, s'.get? k = s.get? k)
    (hresolved : ∀ p, (s'.draft p).resolved = (s.draft p).resolved) :
    Faithful t own s' := by
  intro hown c hc hstraight hnames hres
  have hown' : s.Respects own :=
    fun d hd st hst => hown d hd st ((hstructs d.key).trans hst)
  have hres' : s.IsResolved c.key := by
    unfold Store.IsResolved at hres ⊢
    rwa [← hresolved]
  obtain ⟨st, hst, hlists⟩ := h hown' c hc hstraight hnames hres'
  exact ⟨st, (hstructs c.key).trans hst, hlists⟩

end Invariant

end BridgeBindings
