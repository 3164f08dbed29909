import BridgeBindings.Proofs.Lineage
import Mathlib.Data.List.Sort

/-!
# Orders of the classes of a hierarchy

At run time a method is looked up along a linear order of the classes that a
class inherits from: the orders of its bases and the list of the bases
themselves are merged, and each time the first class is taken that stands in
front of its list and behind no other class. The search for the classes of a
hierarchy lists each class behind its bases, and a base behind the bases that
are written before it. So the search, read backwards, and the order at run time
both put every class before what it inherits from, and they may differ in all
else. They are the same exactly if there is nothing else: if of any two classes
of the hierarchy one inherits from the other.
-/

namespace BridgeBindings

open Syntax Relation

/-! ## Merging -/

section Merging

variable {α : Type} {a b : α} {l rest : List α} {lists lists' : List (List α)}
    {order : List α}

/-- What is left of a list when an element has been taken from all
heads that it is. -/
inductive Takes (a : α) : List α → List α → Prop where
  | head (rest : List α) : Takes a (a :: rest) rest
  | other {l : List α} (isOther : l.head? ≠ some a) : Takes a l l

/-- An element that stands behind no other in these lists. -/
def Free (lists : List (List α)) (a : α) : Prop := ∀ l ∈ lists, a ∉ l.tail

/-- The first of the heads of lists that is free. -/
structure Next (lists : List (List α)) (a : α) : Prop where
  free : Free lists a
  first : ∃ before rest after, lists = before ++ (a :: rest) :: after ∧
    ∀ l ∈ before, ∀ b, l.head? = some b → ¬Free lists b

/-- Lists are merged by taking the next element until there is none. Where
elements are left but none of them is free, they do not merge. -/
inductive Merges : List (List α) → List α → Prop where
  | done {lists : List (List α)} (empty : ∀ l ∈ lists, l = []) : Merges lists []
  | take {lists lists' : List (List α)} {a : α} {order : List α}
      (next : Next lists a) (taken : List.Forall₂ (Takes a) lists lists')
      (rest : Merges lists' order) : Merges lists (a :: order)

theorem Next.mem (h : Next lists a) : ∃ l ∈ lists, a ∈ l := by
  obtain ⟨before, rest, after, rfl, -⟩ := h.first
  exact ⟨a :: rest, by simp, List.mem_cons_self⟩

/-- A free element is in none of the lists when it has been taken. -/
theorem Takes.not_mem (h : Takes a l rest) (hfree : a ∉ l.tail) : a ∉ rest := by
  cases h with
  | head rest => exact hfree
  | other isOther =>
      cases l with
      | nil => exact List.not_mem_nil
      | cons b l =>
          intro hmem
          rcases List.mem_cons.mp hmem with rfl | hmem
          · exact isOther rfl
          · exact hfree hmem

theorem Takes.subset (h : Takes a l rest) (hb : b ∈ rest) : b ∈ l := by
  cases h with
  | head rest => exact List.mem_cons_of_mem a hb
  | other => exact hb

namespace Merges

/-- Each list is found in the merge in its order. -/
theorem preserves (h : Merges lists order) (hl : l ∈ lists) :
    l.Sublist order := by
  induction h generalizing l with
  | done empty =>
      rw [empty l hl]
  | take next taken rest ih =>
      obtain ⟨l', hl', htakes⟩ := forall₂_left taken hl
      have hkept := ih hl'
      cases htakes with
      | head => exact hkept.cons_cons _
      | other => exact hkept.cons _

theorem mem_iff (h : Merges lists order) : a ∈ order ↔ ∃ l ∈ lists, a ∈ l := by
  refine ⟨fun hmem => ?_, fun ⟨l, hl, hmem⟩ => (h.preserves hl).subset hmem⟩
  induction h with
  | done => cases hmem
  | take next taken rest ih =>
      rcases List.mem_cons.mp hmem with rfl | hmem
      · exact next.mem
      · obtain ⟨l', hl', ha⟩ := ih hmem
        obtain ⟨l, hl, htakes⟩ := forall₂_right taken hl'
        exact ⟨l, hl, htakes.subset ha⟩

theorem nodup (h : Merges lists order) : order.Nodup := by
  induction h with
  | done => exact List.nodup_nil
  | take next taken rest ih =>
      refine List.nodup_cons.mpr ⟨fun hmem => ?_, ih⟩
      obtain ⟨l', hl', ha⟩ := rest.mem_iff.mp hmem
      obtain ⟨l, hl, htakes⟩ := forall₂_right taken hl'
      exact htakes.not_mem (next.free l hl) ha

end Merges

end Merging

/-! ## The order at run time -/

namespace Symbols

variable {t : Symbols} {c d e : ProgramClass} {order : List ProgramClass}

/-- The order in which a class and what it inherits from are looked up. A class
without one has bases that cannot be put in order, or inherits from itself. -/
inductive Linearizes (t : Symbols) : ProgramClass →
    List ProgramClass → Prop where
  | of {c : ProgramClass} {orders : ProgramClass → List ProgramClass}
      {rest : List ProgramClass}
      (bases : ∀ b ∈ t.bases c, Linearizes t b (orders b))
      (merged : Merges ((t.bases c).map orders ++ [t.bases c]) rest) :
      Linearizes t c (c :: rest)

/-- A list of the classes that a class inherits from, each once and before all
that it inherits from itself. -/
structure Extends (t : Symbols) (c : ProgramClass) (order : List ProgramClass) :
    Prop where
  members : ∀ d, d ∈ order ↔ t.Inherits c d
  once : order.Nodup
  before : ∀ d e, t.Inherits c d → t.Inherits d e → d ≠ e → [d, e].Sublist order

/-- No class inherits from itself by way of others. -/
def Grounded (t : Symbols) (c : ProgramClass) : Prop :=
  Acc (fun b c => b ∈ t.bases c) c

theorem Grounded.inherited (h : t.Grounded c) (hd : t.Inherits c d) :
    t.Grounded d := by
  induction hd with
  | refl => exact h
  | tail _ hb ih => exact ih.inv hb

theorem Grounded.not_below (h : t.Grounded c) {b : ProgramClass}
    (hb : b ∈ t.bases c) : ¬t.Inherits b c := by
  induction h generalizing b with
  | intro c _ ih =>
      intro hinherits
      -- the class would be a base further down, where the same cycle comes back
      rcases hinherits.cases_head with rfl | ⟨b', hb', hrest⟩
      · exact ih _ hb hb .refl
      · exact ih b hb hb' (hrest.tail hb)

theorem Grounded.antisymm (h : t.Grounded c) (hd : t.Inherits c d)
    (hc : t.Inherits d c) : c = d := by
  rcases hd.cases_head with rfl | ⟨b, hb, hrest⟩
  · rfl
  · exact absurd (hrest.trans hc) (h.not_below hb)

theorem Linearizes.grounded (h : t.Linearizes c order) : t.Grounded c := by
  induction h with
  | of bases merged ih => exact .intro _ ih

/-- The classes of the orders of the bases, and the bases, are those that a
class inherits from other than itself. -/
theorem mem_merged {orders : ProgramClass → List ProgramClass}
    (hmembers : ∀ b ∈ t.bases c, ∀ d, d ∈ orders b ↔ t.Inherits b d) :
    (∃ l ∈ (t.bases c).map orders ++ [t.bases c], d ∈ l) ↔
    ∃ b ∈ t.bases c, t.Inherits b d := by
  constructor
  · rintro ⟨l, hl, hd⟩
    rcases List.mem_append.mp hl with hl | hl
    · obtain ⟨b, hb, rfl⟩ := List.mem_map.mp hl
      exact ⟨b, hb, (hmembers b hb d).mp hd⟩
    · rw [List.mem_singleton.mp hl] at hd
      exact ⟨d, hd, .refl⟩
  · rintro ⟨b, hb, hd⟩
    exact ⟨orders b, List.mem_append_left _ (List.mem_map_of_mem hb),
      (hmembers b hb d).mpr hd⟩

/-- By induction along the bases: what comes before what in the order of a base
does so in the merge. -/
theorem Linearizes.extends (h : t.Linearizes c order) : t.Extends c order := by
  have hgrounded := h.grounded
  induction h with
  | @of c orders rest bases merged ih =>
      have hall : ∀ b ∈ t.bases c, t.Extends b (orders b) :=
        fun b hb => ih b hb (hgrounded.inherited (.single hb))
      have hmem : ∀ d, d ∈ rest ↔ ∃ b ∈ t.bases c, t.Inherits b d := fun d =>
        merged.mem_iff.trans (mem_merged fun b hb => (hall b hb).members)
      refine ⟨fun d => ?_, List.nodup_cons.mpr ⟨fun hc => ?_, merged.nodup⟩,
        fun d e hd he hne => ?_⟩
      · rw [List.mem_cons, hmem]
        constructor
        · rintro (rfl | ⟨b, hb, hd⟩)
          · exact .refl
          · exact .head hb hd
        · intro hd
          rcases hd.cases_head with rfl | ⟨b, hb, hd⟩
          · exact .inl rfl
          · exact .inr ⟨b, hb, hd⟩
      · obtain ⟨b, hb, hbc⟩ := (hmem c).mp hc
        exact hgrounded.not_below hb hbc
      · rcases hd.cases_head with rfl | ⟨b, hb, hd⟩
        · rcases he.cases_head with rfl | ⟨b, hb, he⟩
          · exact absurd rfl hne
          · exact List.Sublist.cons_cons _
              (List.singleton_sublist.mpr ((hmem e).mpr ⟨b, hb, he⟩))
        · have hlist : orders b ∈ (t.bases c).map orders ++ [t.bases c] :=
            List.mem_append_left _ (List.mem_map_of_mem hb)
          exact (((hall b hb).before d e hd he hne).trans
            (merged.preserves hlist)).cons c

/-- The bases come in the order in which they are written. -/
theorem Linearizes.bases_sublist (h : t.Linearizes c order) :
    (t.bases c).Sublist order := by
  cases h with
  | of bases merged =>
      exact (merged.preserves
        (List.mem_append_right _ (List.mem_singleton_self _))).cons _

end Symbols

/-! ## Pairs in a list -/

section Pairs

variable {α : Type} {a b c : α} {l : List α}

theorem pair_sublist_append {l' : List α} (ha : a ∈ l) (hb : b ∈ l') :
    [a, b].Sublist (l ++ l') :=
  (List.singleton_sublist.mpr ha).append (List.singleton_sublist.mpr hb)

theorem mem_of_pair (h : [a, b].Sublist l) : a ∈ l ∧ b ∈ l :=
  ⟨h.subset List.mem_cons_self,
    h.subset (List.mem_cons_of_mem a List.mem_cons_self)⟩

/-- In a list without repetitions no two elements are before each other. -/
theorem pair_asymm (hl : l.Nodup) (h : [a, b].Sublist l) :
    ¬[b, a].Sublist l := by
  induction l with
  | nil => cases h
  | cons x l ih =>
      obtain ⟨hx, hl⟩ := List.nodup_cons.mp hl
      intro h'
      cases h with
      | cons _ h =>
          cases h' with
          | cons _ h' => exact ih hl h h'
          | cons_cons _ h' => exact hx (mem_of_pair h).2
      | cons_cons _ h =>
          cases h' with
          | cons _ h' => exact hx (mem_of_pair h').2
          | cons_cons _ h' => exact hx (List.singleton_sublist.mp h)

theorem pair_trans (hl : l.Nodup) (h : [a, b].Sublist l)
    (h' : [b, c].Sublist l) : [a, c].Sublist l := by
  induction l with
  | nil => cases h
  | cons x l ih =>
      obtain ⟨hx, hl⟩ := List.nodup_cons.mp hl
      cases h' with
      | cons _ h' =>
          cases h with
          | cons _ h => exact (ih hl h h').cons x
          | cons_cons _ h =>
              exact (List.singleton_sublist.mpr (mem_of_pair h').2).cons_cons _
      | cons_cons _ h' =>
          cases h with
          | cons _ h => exact absurd (mem_of_pair h).2 hx
          | cons_cons _ h => exact absurd (List.singleton_sublist.mp h) hx

end Pairs

/-! ## The search -/

namespace Symbols

variable {t : Symbols} {c d : ProgramClass} {seen : List String} {levels : Nat}

/-- What holds of a list of classes that the search has found, and of the names
seen with it: the classes are new, each is there once, and behind those of its
bases that are new. -/
structure Searched (t : Symbols) (seen : List String)
    (found : List ProgramClass × List String) : Prop where
  declared : ∀ d ∈ found.1, t.Declares d
  listed : ∀ n, n ∈ found.2 ↔ n ∈ seen ∨ ∃ d ∈ found.1, d.qualifiedName = n
  fresh : ∀ d ∈ found.1, d.qualifiedName ∉ seen
  once : (found.1.map (·.qualifiedName)).Nodup
  behind : ∀ d ∈ found.1, ∀ b ∈ t.bases d, b.qualifiedName ∈ seen ∨
      [b, d].Sublist found.1

theorem Searched.start (t : Symbols) (seen : List String) :
    t.Searched seen ([], seen) where
  declared d hd := absurd hd List.not_mem_nil
  listed n := by simp
  fresh d hd := absurd hd List.not_mem_nil
  once := List.nodup_nil
  behind d hd := absurd hd List.not_mem_nil

section Found

variable (hk : t.Keyed) (hspelled : t.Spelled)

include hspelled in
/-- A class whose name has been seen has been found, unless the name had
been seen before. -/
theorem Searched.mem {found : List ProgramClass × List String}
    (h : t.Searched seen found) (hd : t.Declares d)
    (hname : d.qualifiedName ∈ found.2) (hnew : d.qualifiedName ∉ seen) :
    d ∈ found.1 := by
  obtain ⟨d', hd', he⟩ := ((h.listed _).mp hname).resolve_left hnew
  rwa [hspelled.unique hd (h.declared d' hd') he.symm]

include hk hspelled

theorem Searched.append {xs ys : List ProgramClass} {seen' seen'' : List String}
    (h : t.Searched seen (xs, seen')) (h' : t.Searched seen' (ys, seen'')) :
    t.Searched seen (xs ++ ys, seen'') where
  declared d hd := (List.mem_append.mp hd).elim (h.declared d) (h'.declared d)
  listed n := by
    rw [h'.listed, h.listed]
    simp only [List.mem_append, or_and_right, exists_or, or_assoc]
  fresh d hd := by
    rcases List.mem_append.mp hd with hd | hd
    · exact h.fresh d hd
    · exact fun hn => h'.fresh d hd ((h.listed _).mpr (.inl hn))
  once := by
    rw [List.map_append]
    refine List.nodup_append.mpr ⟨h.once, h'.once, fun n hn n' hn' he => ?_⟩
    obtain ⟨d, hd, rfl⟩ := List.mem_map.mp hn
    obtain ⟨d', hd', rfl⟩ := List.mem_map.mp hn'
    exact h'.fresh d' hd' ((h.listed _).mpr (.inr ⟨d, hd, he⟩))
  behind d hd b hb := by
    rcases List.mem_append.mp hd with hd | hd
    · exact (h.behind d hd b hb).imp_right fun hs =>
        hs.trans (List.sublist_append_left xs ys)
    · rcases h'.behind d hd b hb with hn | hs
      · by_cases hnew : b.qualifiedName ∈ seen
        · exact .inl hnew
        · have hdeclared := declares_bases hk (h'.declared d hd) hb
          exact .inr (pair_sublist_append (h.mem hspelled hdeclared hn hnew) hd)
      · exact .inr (hs.trans (List.sublist_append_right xs ys))

/-- The bases one after the other. -/
theorem Searched.bases {bs : List ProgramClass}
      (hbs : ∀ b ∈ bs, ∀ seen, t.unseen seen < levels →
      t.Searched seen (t.chainAt levels seen b))
    {found : List ProgramClass × List String} (h : t.Searched seen found)
    (hlevels : t.unseen seen < levels) :
    t.Searched seen (bs.foldl (t.chainBase levels) found) := by
  refine List.foldlRecOn (motive := t.Searched seen) bs _ h
    fun found ih b hb => ?_
  have hless := unseen_le (t := t) fun n hn => (ih.listed n).mpr (.inl hn)
  exact ih.append hk hspelled (hbs b hb found.2 (by omega))

/-- The class itself comes last, so it is behind its bases; and none of those
found has it for a base, as the class is not below itself. -/
theorem Searched.close {found : List ProgramClass × List String}
    (h : t.Searched (c.qualifiedName :: seen) found) (hc : t.Declares c)
    (hgrounded : t.Grounded c) (hnew : c.qualifiedName ∉ seen)
    (hbases : ∀ b ∈ t.bases c, b.qualifiedName ∈ found.2)
    (hinherits : ∀ d ∈ found.1, t.Inherits c d) :
    t.Searched seen (found.1 ++ [c], found.2) where
  declared d hd := by
    rcases List.mem_append.mp hd with hd | hd
    · exact h.declared d hd
    · rwa [List.mem_singleton.mp hd]
  listed n := by
    rw [h.listed]
    simp only [List.mem_cons, List.mem_append, List.not_mem_nil, or_false,
      or_and_right, exists_or, exists_eq_left]
    rw [eq_comm (a := n), or_comm (a := c.qualifiedName = n), or_assoc,
      or_comm (a := c.qualifiedName = n)]
  fresh d hd := by
    rcases List.mem_append.mp hd with hd | hd
    · exact fun hn => h.fresh d hd (List.mem_cons_of_mem _ hn)
    · rwa [List.mem_singleton.mp hd]
  once := by
    rw [List.map_append]
    refine List.nodup_append.mpr
      ⟨h.once, List.nodup_singleton _, fun n hn n' hn' he => ?_⟩
    obtain ⟨d, hd, rfl⟩ := List.mem_map.mp hn
    rw [List.mem_singleton.mp hn'] at he
    exact h.fresh d hd (he ▸ List.mem_cons_self)
  -- a base of what was found before stands there already, for it cannot be the
  -- class itself without a cycle; a base of the class has been found on the way
  behind d hd b hb := by
    rcases List.mem_append.mp hd with hd | hd
    · rcases h.behind d hd b hb with hn | hs
      · rcases List.mem_cons.mp hn with hn | hn
        · have hsame :=
            hspelled.unique (declares_bases hk (h.declared d hd) hb) hc hn
          rw [hsame] at hb
          rcases (hinherits d hd).cases_head with rfl | ⟨b', hb', hrest⟩
          · exact absurd .refl (hgrounded.not_below hb)
          · exact absurd (hrest.tail hb) (hgrounded.not_below hb')
        · exact .inl hn
      · exact .inr (hs.trans (List.sublist_append_left _ _))
    · rw [List.mem_singleton.mp hd] at hb ⊢
      have hdeclared := declares_bases hk hc hb
      by_cases hseen : b.qualifiedName ∈ seen
      · exact .inl hseen
      · refine .inr (pair_sublist_append
          (h.mem hspelled hdeclared (hbases b hb) fun hn => ?_)
          (List.mem_singleton_self c))
        rcases List.mem_cons.mp hn with hn | hn
        · rw [hspelled.unique hdeclared hc hn] at hb
          exact hgrounded.not_below hb .refl
        · exact hseen hn

theorem chainAt_searched (hc : t.Declares c) (hgrounded : t.Grounded c)
    (hlevels : t.unseen seen < levels) :
    t.Searched seen (t.chainAt levels seen c) := by
  induction levels generalizing seen c with
  | zero => exact absurd hlevels (Nat.not_lt_zero _)
  | succ levels ih =>
      by_cases hseen : c.qualifiedName ∈ seen
      · rw [chainAt_seen hseen]
        exact .start t seen
      · have hless := unseen_cons_lt hc hseen
        have hfew : t.unseen (c.qualifiedName :: seen) < levels := by omega
        have hall := Searched.bases hk hspelled (fun b hb _ => ih
          (declares_bases hk hc hb) (hgrounded.inherited (.single hb)))
          (.start t (c.qualifiedName :: seen)) hfew
        have hnames := (Chained.bases (t := t) (fun b hb _ => chainAt_chained hk
          (declares_bases hk hc hb))
          (.start t (c.qualifiedName :: seen)) hfew).2.2
        have hinherits : ∀ d ∈ (t.chainAt (levels + 1) seen c).1,
            t.Inherits c d :=
          fun d hd => inherits_of_mem hd
        rw [chainAt_fresh hseen] at hinherits ⊢
        exact hall.close hk hspelled hc hgrounded hseen hnames
          fun d hd => hinherits d (List.mem_append_left _ hd)

/-- Read backwards, the chain of a class puts every class before what it
inherits from. -/
theorem classChain_extends (hc : t.Declares c) (hgrounded : t.Grounded c) :
    t.Extends c (t.classChain c).reverse := by
  have hsearched : t.Searched [] (t.chainAt t.levels [] c) :=
    chainAt_searched hk hspelled hc hgrounded (unseen_lt_levels t [])
  have honce : (t.classChain c).Nodup := hsearched.once.of_map
  have hmem : ∀ d, d ∈ t.classChain c ↔ t.Inherits c d :=
    fun d => mem_classChain hk hspelled hc
  refine ⟨fun d => List.mem_reverse.trans (hmem d),
    List.nodup_reverse.mpr honce, ?_⟩
  intro d e hd he hne
  have hpair : [e, d].Sublist (t.classChain c) := by
    induction he using ReflTransGen.head_induction_on with
    | refl => exact absurd rfl hne
    | @head d b hb he ih =>
        have hbase : [b, d].Sublist (t.classChain c) :=
          (hsearched.behind d ((hmem d).mpr hd) b hb).resolve_left
            List.not_mem_nil
        by_cases hsame : b = e
        · rwa [← hsame]
        · exact pair_trans honce (ih (hd.tail hb) hsame) hbase
  exact List.reverse_sublist.mpr hpair

end Found

/-- Of any two classes that a class inherits from, one inherits
from the other. -/
def Line (t : Symbols) (c : ProgramClass) : Prop :=
  ∀ d e, t.Inherits c d → t.Inherits c e → t.Inherits d e ∨ t.Inherits e d

/-- The classes of a line can be put in order in one way only. -/
theorem Extends.unique {order order' : List ProgramClass}
    (h : t.Extends c order) (h' : t.Extends c order') (hgrounded : t.Grounded c)
    (hline : t.Line c) : order = order' := by
  have hsorted : ∀ {order}, t.Extends c order → order.Pairwise t.Inherits := by
    intro order h
    refine List.pairwise_iff_forall_sublist.mpr fun {d e} hpair => ?_
    obtain ⟨hd, he⟩ := mem_of_pair hpair
    rw [h.members] at hd he
    refine (hline d e hd he).resolve_right fun hback => ?_
    have hne : e ≠ d := by
      rintro rfl
      exact pair_asymm h.once hpair hpair
    exact pair_asymm h.once hpair (h.before e d he hback hne)
  have hperm : order.Perm order' :=
    (List.perm_ext_iff_of_nodup h.once h'.once).mpr fun d =>
      (h.members d).trans (h'.members d).symm
  refine hperm.eq_of_pairwise (fun d e hd _ hde hed => ?_)
    (hsorted h) (hsorted h')
  exact (hgrounded.inherited ((h.members d).mp hd)).antisymm hde hed

theorem prefix_foldl_chainBase (bs : List ProgramClass)
    (found : List ProgramClass × List String) :
    found.1 <+: (bs.foldl (t.chainBase levels) found).1 := by
  refine List.foldlRecOn
    (motive := fun acc : List ProgramClass × List String => found.1 <+: acc.1)
    bs _ (List.prefix_refl _) fun acc ih b _ =>
      ih.trans (List.prefix_append _ _)

/-- A class whose first base is a line, and inherits from all other
bases, is a line. -/
theorem line_of_first {b : ProgramClass} {bs : List ProgramClass}
    (hbases : t.bases c = b :: bs) (hfirst : t.Line b)
    (hrest : ∀ b' ∈ bs, t.Inherits b b') : t.Line c := by
  have hbelow : ∀ d, t.Inherits c d → d = c ∨ t.Inherits b d := by
    intro d hd
    rcases hd.cases_head with rfl | ⟨b', hb', hd⟩
    · exact .inl rfl
    · rw [hbases] at hb'
      rcases List.mem_cons.mp hb' with rfl | hb'
      · exact .inr hd
      · exact .inr ((hrest b' hb').trans hd)
  intro d e hd he
  rcases hbelow d hd with rfl | hd'
  · exact .inl he
  · rcases hbelow e he with rfl | he'
    · exact .inr hd
    · exact hfirst d e hd' he'

theorem line_of_baseless (hbases : t.bases c = []) : t.Line c := by
  intro d e hd he
  rcases hd.cases_head with rfl | ⟨b, hb, -⟩
  · exact .inl he
  · rw [hbases] at hb
    cases hb

theorem exists_apart {b : ProgramClass} {bs : List ProgramClass}
    (hbases : t.bases c = b :: bs) (hfirst : t.Line b) (hnot : ¬t.Line c) :
    ∃ b' ∈ bs, ¬t.Inherits b b' := by
  by_contra hnone
  push Not at hnone
  exact hnot (line_of_first hbases hfirst hnone)

/-- What the search lists for the first base comes first. -/
theorem chainAt_first {b : ProgramClass} {bs : List ProgramClass}
    (hbases : t.bases c = b :: bs) (hroot : c.qualifiedName ∉ seen) :
    ∃ more, (t.chainAt (levels + 1) seen c).1 =
      (t.chainAt levels (c.qualifiedName :: seen) b).1 ++ more := by
  obtain ⟨more, hmore⟩ : (t.chainAt levels (c.qualifiedName :: seen) b).1 <+:
      ((b :: bs).foldl (t.chainBase levels) ([], c.qualifiedName :: seen)).1 :=
    prefix_foldl_chainBase bs _
  refine ⟨more ++ [c], ?_⟩
  rw [chainAt_fresh hroot, hbases, ← List.append_assoc, hmore]

section Found

variable (hk : t.Keyed) (hspelled : t.Spelled)

include hk hspelled

/-- The search finds all that a class inherits from, if none of it
has been seen. -/
theorem mem_chainAt (hc : t.Declares c) (hgrounded : t.Grounded c)
    (hfree : ∀ d, t.Inherits c d → d.qualifiedName ∉ seen)
    (hlevels : t.unseen seen < levels) : d ∈ (t.chainAt levels seen c).1 ↔
    t.Inherits c d := by
  refine ⟨inherits_of_mem, fun h => ?_⟩
  have hsearched := chainAt_searched hk hspelled hc hgrounded hlevels
  obtain ⟨hchained, hroot⟩ := chainAt_chained hk hc hlevels
  induction h with
  | refl => exact hsearched.mem hspelled hc hroot (hfree c .refl)
  | @tail d b hd hb ih =>
      have hdeclared := declares_bases hk (hsearched.declared d ih) hb
      exact hsearched.mem hspelled hdeclared (hchained.closed d ih b hb)
        (hfree b (hd.tail hb))

/-- What has not been seen of a class has not been seen of a base, and the class
is none of it. -/
theorem unseen_of_base (hc : t.Declares c) (hgrounded : t.Grounded c)
    (hfree : ∀ d, t.Inherits c d → d.qualifiedName ∉ seen) {b : ProgramClass}
    (hb : b ∈ t.bases c) :
    ∀ d, t.Inherits b d → d.qualifiedName ∉ c.qualifiedName :: seen := by
  intro d hd hmem
  rcases List.mem_cons.mp hmem with hname | hmem
  · rw [hspelled.unique (declares_inherited hk (declares_bases hk hc hb) hd)
      hc hname] at hd
    exact hgrounded.not_below hb hd
  · exact hfree d (.head hb hd) hmem

/-- Where a hierarchy is no line, the search lists two of its classes in the
order in which they are looked up: a first base that is a line, and another base
that it does not inherit from. -/
theorem Linearizes.branches {order : List ProgramClass}
    (h : t.Linearizes c order) (hc : t.Declares c)
    (hfree : ∀ d, t.Inherits c d → d.qualifiedName ∉ seen)
    (hlevels : t.unseen seen < levels) (hnot : ¬t.Line c) :
    ∃ d e, [d, e].Sublist order ∧
    [d, e].Sublist (t.chainAt levels seen c).1 := by
  have hgrounded := h.grounded
  -- down the first bases to the first class that branches: there its first base
  -- is a line, and another base is not met on that line
  induction h generalizing seen levels with
  | @of c orders rest bases merged ih =>
      have horder : t.Linearizes c (c :: rest) := .of bases merged
      obtain ⟨levels, rfl⟩ :=
        Nat.exists_eq_succ_of_ne_zero (Nat.ne_zero_of_lt hlevels)
      have hless := unseen_cons_lt hc (hfree c .refl)
      have hfew : t.unseen (c.qualifiedName :: seen) < levels := by omega
      cases hbases : t.bases c with
      | nil => exact absurd (line_of_baseless hbases) hnot
      | cons b bs =>
          have hb : b ∈ t.bases c := by rw [hbases]; exact List.mem_cons_self
          have hdeclared := declares_bases hk hc hb
          have hground := hgrounded.inherited (.single hb)
          have hfree' := unseen_of_base hk hspelled hc hgrounded hfree hb
          obtain ⟨more, hchain⟩ :=
            @chainAt_first t c seen levels b bs hbases (hfree c .refl)
          by_cases hfirst : t.Line b
          · obtain ⟨b', hb', hapart⟩ := exists_apart hbases hfirst hnot
            have hbase : b' ∈ t.bases c := by
              rw [hbases]; exact List.mem_cons_of_mem b hb'
            have hlisted :
                b ∈ (t.chainAt levels (c.qualifiedName :: seen) b).1 :=
              (mem_chainAt hk hspelled hdeclared hground hfree' hfew).mpr .refl
            have hsecond : b' ∈ more := by
              have hmem :=
                (mem_chainAt hk hspelled hc hgrounded hfree hlevels).mpr
                  (.single hbase)
              rw [hchain] at hmem
              exact (List.mem_append.mp hmem).resolve_left fun hmem =>
                hapart (inherits_of_mem hmem)
            have hpair : [b, b'].Sublist (b :: bs) :=
              (List.singleton_sublist.mpr hb').cons_cons b
            refine ⟨b, b', hpair.trans (hbases ▸ horder.bases_sublist), ?_⟩
            rw [hchain]
            exact pair_sublist_append hlisted hsecond
          · obtain ⟨d, e, hlooked, hlisted⟩ :=
              ih b hb hdeclared hfree' hfew hfirst hground
            have hlist : orders b ∈ (t.bases c).map orders ++ [t.bases c] :=
              List.mem_append_left _ (List.mem_map_of_mem hb)
            refine ⟨d, e, (hlooked.trans (merged.preserves hlist)).cons c, ?_⟩
            rw [hchain]
            exact hlisted.trans (List.sublist_append_left _ _)

/-- The search, read backwards, is the order at run time exactly if the
hierarchy is a line. -/
theorem Linearizes.chain_eq_iff {order : List ProgramClass}
    (h : t.Linearizes c order) (hc : t.Declares c) :
    (t.classChain c).reverse = order ↔ t.Line c := by
  have hgrounded := h.grounded
  have hextends := classChain_extends hk hspelled hc hgrounded
  refine ⟨fun he => ?_, hextends.unique h.extends hgrounded⟩
  by_contra hnot
  obtain ⟨d, e, hlooked, hlisted⟩ :=
    h.branches hk hspelled hc (fun _ _ => List.not_mem_nil)
    (unseen_lt_levels t []) hnot
  rw [← he] at hlooked
  exact pair_asymm hextends.once hlooked (List.reverse_sublist.mpr hlisted)

end Found

end Symbols

end BridgeBindings
