import BridgeBindings.Bridge.Surface
import BridgeBindings.Proofs.Coherence
import BridgeBindings.Proofs.Progress
import Mathlib.Logic.Relation

/-!
# The classes that a class inherits from

The chain of a class is searched depth first, and a class that has been seen is
not entered again. The levels of the search are enough: each level sees a class
more, and a program has only so many of them. What the search has listed when it
is back has had all its bases seen, and at the end everything seen is listed; so
the chain is what the bases lead to, cycles or not.
-/

namespace BridgeBindings

open Syntax Relation

namespace Symbols

/-- A class is another one or inherits from it, directly or not. -/
def Inherits (t : Symbols) : ProgramClass → ProgramClass → Prop :=
  ReflTransGen fun c b => b ∈ t.bases c

/-- No name has a dot in it, so a qualified name tells what it is made of. Every
program that is loaded is like this. -/
structure Spelled (t : Symbols) : Prop where
  cls : ∀ c, t.Declares c → '.' ∉ c.name.toList
  method : ∀ c, t.Declares c → ∀ f ∈ c.decl.publicMethods, '.' ∉ f.name.toList

end Symbols

/-- What stands in front of the last dot and behind it. -/
theorem split_last_dot {a b x y : String} (hx : '.' ∉ x.toList)
    (hy : '.' ∉ y.toList) (h : a ++ "." ++ x = b ++ "." ++ y) :
    a = b ∧ x = y := by
  have hlists : a.toList ++ '.' :: x.toList = b.toList ++ '.' :: y.toList := by
    have := congrArg String.toList h
    simpa using this
  obtain ⟨hab, hxy⟩ := Symbols.append_inj_of_last hx hy hlists
  exact ⟨String.toList_inj.mp hab, String.toList_inj.mp hxy⟩

namespace Symbols

variable {t : Symbols} {c d : ProgramClass} {seen : List String} {levels : Nat}

theorem Spelled.unique (h : t.Spelled) (hc : t.Declares c) (hd : t.Declares d)
    (hname : c.qualifiedName = d.qualifiedName) : c = d := by
  obtain ⟨hmodule, hsame⟩ := split_last_dot (h.cls c hc) (h.cls d hd) hname
  exact hc.unique hd hmodule hsame

theorem Spelled.key (h : t.Spelled) (hc : t.Declares c) (hd : t.Declares d)
    (htext : c.key.text = d.key.text) : c.key = d.key := by
  obtain ⟨hpackage, hname⟩ := split_last_dot (h.cls c hc) (h.cls d hd) htext
  exact ProgramClass.key_eq hpackage hname

/-! ## One level -/

/-- The search goes on at a base. -/
def chainBase (t : Symbols) (levels : Nat)
    (acc : List ProgramClass × List String) (b : ProgramClass) :
    List ProgramClass × List String :=
  (acc.1 ++ (t.chainAt levels acc.2 b).1, (t.chainAt levels acc.2 b).2)

theorem chainAt_seen (h : c.qualifiedName ∈ seen) :
    t.chainAt (levels + 1) seen c = ([], seen) := by
  rw [chainAt, if_pos (List.contains_iff_mem.mpr h)]

theorem chainAt_fresh (h : c.qualifiedName ∉ seen) :
    t.chainAt (levels + 1) seen c =
    let found := (t.bases c).foldl (t.chainBase levels)
      ([], c.qualifiedName :: seen)
    (found.1 ++ [c], found.2) := by
  rw [chainAt, if_neg fun hc => h (List.contains_iff_mem.mp hc)]
  rfl

/-! ## What is left to see -/

/-- The qualified names of all classes of a program. -/
def classNames (t : Symbols) : List String :=
  t.scopes.values.flatMap fun s => s.classes.keys.map (s.module ++ "." ++ ·)

/-- How many classes have not been seen. -/
def unseen (t : Symbols) (seen : List String) : Nat :=
  (t.classNames.filter (· ∉ seen)).length

theorem unseen_lt_levels (t : Symbols) (seen : List String) :
    t.unseen seen < t.levels := by
  have hfilter :=
    List.length_filter_le (fun n => decide (n ∉ seen)) t.classNames
  have hall : t.classNames.length + 1 ≤ t.levels := by
    unfold classNames levels
    induction t.scopes.values with
    | nil => exact Nat.le_refl _
    | cons scope scopes ih =>
        simp only [List.flatMap_cons, List.length_append,
          List.length_map] at ih ⊢
        omega
  unfold unseen
  omega

theorem unseen_le {seen' : List String} (h : ∀ n ∈ seen, n ∈ seen') :
    t.unseen seen' ≤ t.unseen seen := by
  refine List.Sublist.length_le
    (List.monotone_filter_right t.classNames fun n hn => ?_)
  exact decide_eq_true fun hs => of_decide_eq_true hn (h n hs)

theorem unseen_cons_lt (hc : t.Declares c) (h : c.qualifiedName ∉ seen) :
    t.unseen (c.qualifiedName :: seen) < t.unseen seen :=
  filter_mark_lt
    (List.mem_flatMap.mpr ⟨c.scope, Table.mem_values_of_get? hc.inTree,
    List.mem_map.mpr ⟨c.name, Table.mem_keys_of_get? hc.decl, rfl⟩⟩) h

/-! ## What the search has found -/

/-- What holds of a list of classes and of the names seen with it:
nothing has been forgotten, what is new is listed, and what is listed has
had its bases seen. -/
structure Chained (t : Symbols) (seen : List String)
    (found : List ProgramClass × List String) : Prop where
  kept : ∀ n ∈ seen, n ∈ found.2
  listed : ∀ n ∈ found.2, n ∈ seen ∨ ∃ d ∈ found.1, d.qualifiedName = n
  closed : ∀ d ∈ found.1, ∀ b ∈ t.bases d, b.qualifiedName ∈ found.2

theorem Chained.start (t : Symbols) (seen : List String) :
    t.Chained seen ([], seen) :=
  ⟨fun _ h => h, fun _ h => .inl h, fun _ h => absurd h List.not_mem_nil⟩

theorem Chained.append {xs ys : List ProgramClass} {seen' seen'' : List String}
    (h : t.Chained seen (xs, seen')) (h' : t.Chained seen' (ys, seen'')) :
    t.Chained seen (xs ++ ys, seen'') where
  kept n hn := h'.kept n (h.kept n hn)
  listed n hn := by
    rcases h'.listed n hn with hn | ⟨d, hd, he⟩
    · rcases h.listed n hn with hn | ⟨d, hd, he⟩
      · exact .inl hn
      · exact .inr ⟨d, List.mem_append_left _ hd, he⟩
    · exact .inr ⟨d, List.mem_append_right _ hd, he⟩
  closed d hd b hb := by
    rcases List.mem_append.mp hd with hd | hd
    · exact h'.kept _ (h.closed d hd b hb)
    · exact h'.closed d hd b hb

/-- The bases one after the other: what has been seen on the way stays seen. -/
theorem Chained.bases {bs : List ProgramClass}
      (hbs : ∀ b ∈ bs, ∀ seen, t.unseen seen < levels →
      t.Chained seen (t.chainAt levels seen b) ∧
      b.qualifiedName ∈ (t.chainAt levels seen b).2)
    {found : List ProgramClass × List String} (h : t.Chained seen found)
    (hlevels : t.unseen seen < levels) :
    t.Chained seen (bs.foldl (t.chainBase levels) found) ∧
      (∀ n ∈ found.2, n ∈ (bs.foldl (t.chainBase levels) found).2) ∧
        ∀ b ∈ bs, b.qualifiedName ∈
        (bs.foldl (t.chainBase levels) found).2 := by
  induction bs generalizing found with
  | nil => exact ⟨h, fun _ hn => hn, fun b hb => absurd hb List.not_mem_nil⟩
  | cons b bs ih =>
      have hless := unseen_le (t := t) h.kept
      obtain ⟨hchain, hname⟩ := hbs b List.mem_cons_self found.2 (by omega)
      obtain ⟨hall, hkept, hnames⟩ :=
        ih (fun b hb => hbs b (List.mem_cons_of_mem _ hb)) (h.append hchain)
      refine ⟨hall, fun n hn => hkept n (hchain.kept n hn), fun b' hb' => ?_⟩
      rcases List.mem_cons.mp hb' with rfl | hb'
      · exact hkept _ hname
      · exact hnames b' hb'

variable (hk : t.Keyed)

include hk

/-- By induction on the levels, with more of them than classes are left
to see. The class itself is marked before its bases are searched and
listed behind them. -/
theorem chainAt_chained (hc : t.Declares c) (hlevels : t.unseen seen < levels) :
    t.Chained seen (t.chainAt levels seen c) ∧
    c.qualifiedName ∈ (t.chainAt levels seen c).2 := by
  induction levels generalizing seen c with
  | zero => exact absurd hlevels (Nat.not_lt_zero _)
  | succ levels ih =>
      by_cases hseen : c.qualifiedName ∈ seen
      · rw [chainAt_seen hseen]
        exact ⟨.start t seen, hseen⟩
      · have hless := unseen_cons_lt hc hseen
        obtain ⟨hall, hkept, hnames⟩ := Chained.bases (t := t)
          (fun b hb seen => ih (declares_bases hk hc hb))
          (.start t (c.qualifiedName :: seen)) (by omega)
        rw [chainAt_fresh hseen]
        have hmarked := hkept _ List.mem_cons_self
        refine ⟨⟨fun n hn => hkept n (List.mem_cons_of_mem _ hn),
          fun n hn => ?_, fun d hd => ?_⟩, hmarked⟩
        · rcases hall.listed n hn with hn | ⟨d, hd, he⟩
          · rcases List.mem_cons.mp hn with rfl | hn
            · exact .inr ⟨c,
                List.mem_append_right _ (List.mem_singleton_self c), rfl⟩
            · exact .inl hn
          · exact .inr ⟨d, List.mem_append_left _ hd, he⟩
        · rcases List.mem_append.mp hd with hd | hd
          · exact hall.closed d hd
          · rw [List.mem_singleton.mp hd]
            exact hnames

omit hk in
theorem inherits_of_mem (hd : d ∈ (t.chainAt levels seen c).1) :
    t.Inherits c d := by
  induction levels generalizing seen c d with
  | zero => exact absurd hd List.not_mem_nil
  | succ levels ih =>
      by_cases hseen : c.qualifiedName ∈ seen
      · rw [chainAt_seen hseen] at hd
        exact absurd hd List.not_mem_nil
      · rw [chainAt_fresh hseen] at hd
        rcases List.mem_append.mp hd with hd | hd
        · refine List.foldlRecOn
            (motive := fun found : List ProgramClass × List String =>
            ∀ d ∈ found.1, t.Inherits c d) (t.bases c) (t.chainBase levels)
            (fun d hd => absurd hd List.not_mem_nil)
            (fun found ih' b hb d hd => ?_) d hd
          rcases List.mem_append.mp hd with hd | hd
          · exact ih' d hd
          · exact .head hb (ih hd)
        · rw [List.mem_singleton.mp hd]
          exact .refl

theorem declares_inherited (hc : t.Declares c) (h : t.Inherits c d) :
    t.Declares d := by
  induction h with
  | refl => exact hc
  | tail _ hb ih => exact declares_bases hk ih hb

/-- The chain of a class is all that it inherits from, and itself. -/
theorem mem_classChain (hspelled : t.Spelled) (hc : t.Declares c) :
    d ∈ t.classChain c ↔ t.Inherits c d := by
  refine ⟨inherits_of_mem, fun h => ?_⟩
  obtain ⟨hchain, hname⟩ := chainAt_chained hk hc (unseen_lt_levels t [])
  have hlisted : ∀ b, t.Declares b →
      b.qualifiedName ∈ (t.chainAt t.levels [] c).2 → b ∈ t.classChain c := by
    intro b hb hn
    obtain ⟨b', hb', he⟩ := (hchain.listed _ hn).resolve_left List.not_mem_nil
    rwa [hspelled.unique hb (declares_chainAt hk hc hb') he.symm]
  induction h with
  | refl => exact hlisted c hc hname
  | tail _ hb ih =>
      exact hlisted _ (declares_bases hk (declares_chainAt hk hc ih) hb)
        (hchain.closed _ ih _ hb)

end Symbols

end BridgeBindings
