import BridgeBindings.Proofs.Overriding
import Mathlib.Data.Set.Finite.Basic

/-!
# The chain of a class

The search for the chain of a class counts levels, and there are enough of
them. It is told here without any: a class that has been seen is passed over,
and one that has not is marked, then its bases are searched, then it is listed.
Each search of this kind has one outcome, and the function comes to it, so the
levels never show.

Marking before going on is what keeps a cycle of bases from being gone round
twice; what it costs is that a class on a cycle may be listed before a base that
is marked already. Where no class inherits from itself the marked classes are
never among the bases, so every class is behind its bases. That no class does so
is said here of the classes one by one; a program has only so many classes, so
then no way along bases goes on forever.
-/

namespace BridgeBindings

open Syntax Relation

namespace Symbols

variable {t : Symbols} {c d : ProgramClass}
  {classes chain chain' : List ProgramClass}
  {seen seen' : List String} {levels : Nat}

/-! ## The search without levels -/

/-- A search of these classes, one after the other: the names that have been
seen, the classes still to be searched, the classes that the search lists, and
the names seen in the end. -/
inductive Climbs (t : Symbols) :
    List String → List ProgramClass → List ProgramClass →
    List String → Prop where
  | done {seen : List String} : Climbs t seen [] [] seen
  | skip {seen seen' : List String} {c : ProgramClass}
      {classes chain : List ProgramClass} (known : c.qualifiedName ∈ seen)
      (rest : Climbs t seen classes chain seen') :
      Climbs t seen (c :: classes) chain seen'
  | enter {seen seen' seen'' : List String} {c : ProgramClass}
      {classes above beside : List ProgramClass} (new : c.qualifiedName ∉ seen)
      (bases : Climbs t (c.qualifiedName :: seen) (t.bases c) above seen')
      (rest : Climbs t seen' classes beside seen'') :
      Climbs t seen (c :: classes) (above ++ c :: beside) seen''

theorem Climbs.unique (h : t.Climbs seen classes chain seen')
    {seen'' : List String} (h' : t.Climbs seen classes chain' seen'') :
    chain = chain' ∧ seen' = seen'' := by
  induction h generalizing chain' seen'' with
  | done =>
      cases h'
      exact ⟨rfl, rfl⟩
  | skip known _ ih =>
      cases h' with
      | skip _ rest => exact ih rest
      | enter new _ _ => exact absurd known new
  | enter new _ _ ihbases ihrest =>
      cases h' with
      | skip known _ => exact absurd known new
      | enter _ bases rest =>
          obtain ⟨rfl, rfl⟩ := ihbases bases
          obtain ⟨rfl, rfl⟩ := ihrest rest
          exact ⟨rfl, rfl⟩

/-- What has been seen in the end: what had been seen before, and
what is listed. -/
theorem Climbs.mem_seen (h : t.Climbs seen classes chain seen') {n : String} :
    n ∈ seen' ↔ n ∈ seen ∨ n ∈ chain.map (·.qualifiedName) := by
  induction h with
  | done => simp
  | skip _ _ ih => exact ih
  | @enter seen seen' seen'' c classes above beside _ _ _ ihbases ihrest =>
      rw [ihrest, ihbases]
      simp only [List.mem_cons, List.map_append, List.map_cons, List.mem_append]
      tauto

/-- Nothing is listed that had been seen before. -/
theorem Climbs.fresh (h : t.Climbs seen classes chain seen') :
    ∀ n ∈ chain.map (·.qualifiedName), n ∉ seen := by
  induction h with
  | done => simp
  | skip _ _ ih => exact ih
  | @enter seen seen' seen'' c classes above beside new bases _
      ihbases ihrest =>
      intro n hn
      rw [List.map_append, List.map_cons, List.mem_append, List.mem_cons] at hn
      rcases hn with hn | rfl | hn
      · exact fun hs => ihbases n hn (List.mem_cons_of_mem _ hs)
      · exact new
      · exact fun hs =>
          ihrest n hn (bases.mem_seen.mpr (.inl (List.mem_cons_of_mem _ hs)))

/-- No name is listed twice: what the bases list and the class itself have been
seen when the search goes on beside it. -/
theorem Climbs.nodup (h : t.Climbs seen classes chain seen') :
    (chain.map (·.qualifiedName)).Nodup := by
  induction h with
  | done => exact List.nodup_nil
  | skip _ _ ih => exact ih
  | @enter seen seen' seen'' c classes above beside new bases rest
      ihbases ihrest =>
      have hclass : c.qualifiedName ∈ seen' :=
        bases.mem_seen.mpr (.inl List.mem_cons_self)
      rw [List.map_append, List.map_cons]
      refine List.nodup_append.mpr
        ⟨ihbases, List.nodup_cons.mpr ⟨fun hn => ?_, ihrest⟩, ?_⟩
      · exact rest.fresh _ hn hclass
      · rintro n hn _ hn' rfl
        rcases List.mem_cons.mp hn' with rfl | hn'
        · exact bases.fresh _ hn List.mem_cons_self
        · exact rest.fresh _ hn' (bases.mem_seen.mpr (.inr hn))

/-! ## The function -/

/-- The bases are searched one after the other, whatever has been
listed before. -/
theorem foldl_chainBase (bs : List ProgramClass)
    (found : List ProgramClass × List String) :
    bs.foldl (t.chainBase levels) found =
      (found.1 ++ (bs.foldl (t.chainBase levels) ([], found.2)).1,
        (bs.foldl (t.chainBase levels) ([], found.2)).2) := by
  induction bs generalizing found with
  | nil => rw [List.foldl_nil, List.foldl_nil, List.append_nil]
  | cons b bs ih =>
      rw [List.foldl_cons, List.foldl_cons, ih,
        ih (t.chainBase levels ([], found.2) b)]
      simp only [chainBase, List.nil_append, List.append_assoc]

theorem Climbs.append {classes' : List ProgramClass} {seen'' : List String}
    (h : t.Climbs seen classes chain seen')
    (h' : t.Climbs seen' classes' chain' seen'') :
    t.Climbs seen (classes ++ classes') (chain ++ chain') seen'' := by
  induction h with
  | done => exact h'
  | skip known _ ih => exact .skip known (ih h')
  | enter new bases _ _ ihrest =>
      rw [List.append_assoc, List.cons_append]
      exact .enter new bases (ihrest h')

theorem climbs_bases {bs : List ProgramClass}
      (hbs : ∀ b ∈ bs, ∀ seen, t.unseen seen < levels →
      t.Climbs seen [b] (t.chainAt levels seen b).1 (t.chainAt levels seen b).2)
    (hlevels : t.unseen seen < levels) :
    t.Climbs seen bs (bs.foldl (t.chainBase levels) ([], seen)).1
      (bs.foldl (t.chainBase levels) ([], seen)).2 := by
  induction bs generalizing seen with
  | nil => exact .done
  | cons b bs ih =>
      have hfirst := hbs b List.mem_cons_self seen hlevels
      have hless := unseen_le (t := t) fun n hn => hfirst.mem_seen.mpr (.inl hn)
      rw [List.foldl_cons, foldl_chainBase]
      exact hfirst.append
        (ih (fun b hb => hbs b (List.mem_cons_of_mem _ hb)) (by omega))

/-- With more levels than classes are left to see, the function
makes the search. -/
theorem climbs_chainAt (hk : t.Keyed) (hc : t.Declares c)
    (hlevels : t.unseen seen < levels) :
    t.Climbs seen [c] (t.chainAt levels seen c).1
    (t.chainAt levels seen c).2 := by
  induction levels generalizing seen c with
  | zero => exact absurd hlevels (Nat.not_lt_zero _)
  | succ levels ih =>
      by_cases hseen : c.qualifiedName ∈ seen
      · rw [chainAt_seen hseen]
        exact .skip hseen .done
      · have hless := unseen_cons_lt hc hseen
        rw [chainAt_fresh hseen]
        exact .enter hseen
          (climbs_bases (fun b hb _ => ih (declares_bases hk hc hb)) (by omega))
          .done

/-- From every class there is one search, and the function gives
what it lists. -/
theorem climbs_iff (hk : t.Keyed) (hc : t.Declares c) :
    (∃ seen, t.Climbs [] [c] chain seen) ↔ chain = t.classChain c := by
  have hsearch := climbs_chainAt hk hc (unseen_lt_levels t [])
  constructor
  · rintro ⟨seen, h⟩
    exact (h.unique hsearch).1
  · rintro rfl
    exact ⟨_, hsearch⟩

theorem nodup_classChain (hk : t.Keyed) (hc : t.Declares c) :
    (t.classChain c).Nodup :=
  (climbs_chainAt hk hc (unseen_lt_levels t [])).nodup.of_map

/-- The class itself is listed when everything else has been. -/
theorem classChain_last (t : Symbols) (c : ProgramClass) :
    (t.classChain c).getLast? = some c := by
  unfold classChain levels
  rw [chainAt_fresh List.not_mem_nil, List.getLast?_concat]

/-! ## Hierarchies without cycles -/

/-- No class that a class inherits from inherits from itself by way
of its bases. -/
def Acyclic (t : Symbols) (c : ProgramClass) : Prop :=
  ∀ d, t.Inherits c d → ∀ b ∈ t.bases d, ¬t.Inherits b d

/-- A class inherits from only so many others, so without a cycle there is no
way up among them that goes on forever. -/
theorem Acyclic.wellFounded (h : t.Acyclic c) (hk : t.Keyed)
    (hspelled : t.Spelled) (hc : t.Declares c) :
    WellFounded fun b d : {d // d ∈ t.classChain c} =>
      ∃ a ∈ t.bases d.1, t.Inherits a b.1 := by
  have hfinite : Finite {d // d ∈ t.classChain c} :=
    (t.classChain c).finite_toSet.to_subtype
  have htrans : IsTrans {d // d ∈ t.classChain c} fun b d =>
      ∃ a ∈ t.bases d.1, t.Inherits a b.1 :=
    ⟨fun _ _ _ ⟨_, ha, hab⟩ ⟨a', ha', hba⟩ =>
      ⟨a', ha', hba.trans (.head ha hab)⟩⟩
  have hirrefl : Std.Irrefl fun b d : {d // d ∈ t.classChain c} =>
      ∃ a ∈ t.bases d.1, t.Inherits a b.1 :=
    ⟨fun d ⟨a, ha, had⟩ =>
      h d.1 ((mem_classChain hk hspelled hc).mp d.2) a ha had⟩
  exact Finite.wellFounded_of_trans_of_irrefl _

theorem Acyclic.grounded (h : t.Acyclic c) (hk : t.Keyed) (hspelled : t.Spelled)
    (hc : t.Declares c) : t.Grounded c := by
  have hmem : ∀ d, d ∈ t.classChain c ↔ t.Inherits c d :=
    fun d => mem_classChain hk hspelled hc
  have hall (x : {d // d ∈ t.classChain c}) : t.Grounded x.1 := by
    induction x using (h.wellFounded hk hspelled hc).induction with
    | _ x ih =>
        refine Acc.intro x.1 fun b hb => ?_
        exact ih ⟨b, (hmem b).mpr (((hmem x.1).mp x.2).tail hb)⟩ ⟨b, hb, .refl⟩
  exact hall ⟨c, (hmem c).mpr .refl⟩

end Symbols

/-- The chain of a class, in a program whose names have no dots in them, as
those of every loaded program (`spelled_of_load`). The search for it ends,
cycles of bases or not, and lists each class once that the class inherits from,
itself included and last. If none of them inherits from itself, each stands
behind all its bases. -/
theorem classChain_complete (p : Program)
    (hspelled : (Symbols.ofProgram p).Spelled) {c : ProgramClass}
    (hc : (Symbols.ofProgram p).Declares c) :
    (∀ chain, (∃ seen, (Symbols.ofProgram p).Climbs [] [c] chain seen) ↔
      chain = (Symbols.ofProgram p).classChain c) ∧
    ((Symbols.ofProgram p).classChain c).Nodup ∧
    (∀ d, d ∈ (Symbols.ofProgram p).classChain c ↔
      (Symbols.ofProgram p).Inherits c d) ∧
    ((Symbols.ofProgram p).classChain c).getLast? = some c ∧
    ((Symbols.ofProgram p).Acyclic c → ∀ d ∈ (Symbols.ofProgram p).classChain c,
      ∀ b ∈ (Symbols.ofProgram p).bases d,
        [b, d].Sublist ((Symbols.ofProgram p).classChain c)) := by
  have hk := Symbols.keyed_ofProgram p
  refine ⟨fun chain => Symbols.climbs_iff hk hc, Symbols.nodup_classChain hk hc,
    fun d => Symbols.mem_classChain hk hspelled hc, Symbols.classChain_last _ c,
    fun hacyclic d hd b hb => ?_⟩
  have hinherits := (Symbols.mem_classChain hk hspelled hc).mp hd
  have hextends :=
    Symbols.classChain_extends hk hspelled hc (hacyclic.grounded hk hspelled hc)
  have hne : d ≠ b := by
    rintro rfl
    exact hacyclic d hinherits d hb .refl
  exact List.reverse_sublist.mp (hextends.before d b hinherits (.single hb) hne)

namespace Sample

theorem diamond_acyclic :
    (Symbols.ofProgram (hierarchy diamondClasses)).Acyclic diamond :=
  fun _ hd _ hb => (diamond_linearizes.grounded.inherited hd).not_below hb

/-- Each of two classes is written as a base of the other. -/
def ringClasses : List ClassDef :=
  [cls "Ping" ["Pong"] [.other], cls "Pong" ["Ping"] [.other]]

def ping : ProgramClass := within ringClasses (cls "Ping" ["Pong"] [.other])

def pong : ProgramClass := within ringClasses (cls "Pong" ["Ping"] [.other])

theorem chains_computed :
    (Symbols.ofProgram (hierarchy diamondClasses)).classChain diamond =
      [diamondBase, diamondLeft, diamondRight, diamond] ∧
    (Symbols.ofProgram (hierarchy ringClasses)).classChain ping =
    [pong, ping] := by
  rw [hierarchy, hierarchy, symbols_source, symbols_source]
  exact ⟨rfl, rfl⟩

/-- The common base of a diamond is listed once and before both classes between,
and a ring of two classes is searched to its end. -/
theorem chains_listed :
    ((Symbols.ofProgram (hierarchy diamondClasses)).Spelled ∧
      (Symbols.ofProgram (hierarchy diamondClasses)).Declares diamond ∧
      (Symbols.ofProgram (hierarchy diamondClasses)).Acyclic diamond ∧
      [diamondBase, diamondLeft, diamondRight, diamond].Nodup ∧
      [diamondBase, diamondRight].Sublist
        [diamondBase, diamondLeft, diamondRight, diamond]) ∧
    (Symbols.ofProgram (hierarchy ringClasses)).Spelled ∧
      (Symbols.ofProgram (hierarchy ringClasses)).Declares ping ∧
      (∃ seen, (Symbols.ofProgram (hierarchy ringClasses)).Climbs [] [ping]
        [pong, ping] seen) ∧
      (Symbols.ofProgram (hierarchy ringClasses)).Inherits ping pong := by
  obtain ⟨hdiamond, hring⟩ := chains_computed
  obtain ⟨-, -, hright, -⟩ := diamond_bases
  have hspelled : (Symbols.ofProgram (hierarchy diamondClasses)).Spelled :=
    hierarchy_spelled (by decide) (by decide)
  have hdeclared :
      (Symbols.ofProgram (hierarchy diamondClasses)).Declares diamond :=
    ⟨has_source _, rfl⟩
  have hspelled' : (Symbols.ofProgram (hierarchy ringClasses)).Spelled :=
    hierarchy_spelled (by decide) (by decide)
  have hdeclared' : (Symbols.ofProgram (hierarchy ringClasses)).Declares ping :=
    ⟨has_source _, rfl⟩
  obtain ⟨-, hnodup, -, -, hordered⟩ :=
    classChain_complete (hierarchy diamondClasses) hspelled hdeclared
  obtain ⟨hsearch, -, hmembers, -, -⟩ :=
    classChain_complete (hierarchy ringClasses) hspelled' hdeclared'
  rw [hdiamond] at hnodup hordered
  refine ⟨⟨hspelled, hdeclared, diamond_acyclic, hnodup, ?_⟩,
    hspelled', hdeclared', (hsearch [pong, ping]).mpr hring.symm,
    (hmembers pong).mp ?_⟩
  · exact hordered diamond_acyclic diamondRight (by simp) diamondBase
      (by rw [hright]; exact List.mem_singleton_self _)
  · rw [hring]
    exact List.mem_cons_self

end Sample

end BridgeBindings
