import BridgeBindings.Proofs.Overriding
import Mathlib.Data.List.Chain
import Mathlib.Data.List.Perm.Subperm

/-!
# Records by their bases

Whether a class is a record is asked of it and of its bases up to a fixed
depth, and nothing is marked on the way: a class with two ways up to it is
asked twice, and a cycle is gone round until the depth is used up. The depth
counts down one step at a time and is looked at only after the class itself has
been, so the question gets exactly to the classes that are no further away than
the depth. Where these are all that a class inherits from, the bounded question
is the unbounded one.

That a class is not an enum is asked of the class alone, not of its bases.
-/

namespace BridgeBindings

open Syntax Relation

namespace Symbols

variable {t : Symbols} {c d : ProgramClass} {n : Nat}

/-- A class is another one or inherits from it by way of this many
bases at the most. -/
inductive InheritsWithin (t : Symbols) : Nat → ProgramClass →
    ProgramClass → Prop where
  | self (n : Nat) (c : ProgramClass) : InheritsWithin t n c c
  | base {n : Nat} {c b d : ProgramClass} (isBase : b ∈ t.bases c)
      (rest : InheritsWithin t n b d) : InheritsWithin t (n + 1) c d

theorem InheritsWithin.inherits (h : t.InheritsWithin n c d) :
    t.Inherits c d := by
  induction h with
  | self n c => exact .refl
  | base isBase _ ih => exact .head isBase ih

/-- The search gets as far as the depth, and not one step less. -/
theorem reachesRecord_iff :
    t.reachesRecord n c = true ↔
    ∃ d, t.InheritsWithin n c d ∧ d.decl.isRecord = true := by
  induction n generalizing c with
  | zero =>
      constructor
      · exact fun h => ⟨c, .self 0 c, h⟩
      · rintro ⟨d, hwithin, hrecord⟩
        cases hwithin
        exact hrecord
  | succ n ih =>
      rw [reachesRecord, Bool.or_eq_true, List.any_eq_true]
      constructor
      · rintro (h | ⟨b, hb, hreach⟩)
        · exact ⟨c, .self _ c, h⟩
        · obtain ⟨d, hwithin, hrecord⟩ := ih.mp hreach
          exact ⟨d, .base hb hwithin, hrecord⟩
      · rintro ⟨d, hwithin, hrecord⟩
        cases hwithin with
        | self => exact .inl hrecord
        | base hb hrest => exact .inr ⟨_, hb, ih.mpr ⟨d, hrest, hrecord⟩⟩

/-- What a class is asked, with the depth in it. -/
theorem isRecord_iff_within : t.isRecord c = true ↔
    t.enumType c = none ∧ ∃ d, t.InheritsWithin maxBaseDepth c d ∧
    d.decl.isRecord = true := by
  rw [isRecord, Bool.and_eq_true, Option.isNone_iff_eq_none, reachesRecord_iff]

/-! ## How far away a class can be -/

theorem InheritsWithin.mono {m : Nat} (h : t.InheritsWithin n c d)
    (hle : n ≤ m) : t.InheritsWithin m c d := by
  induction h generalizing m with
  | self n c => exact .self m c
  | base isBase _ ih =>
      cases m with
      | zero => exact absurd hle (Nat.not_succ_le_zero _)
      | succ m => exact .base isBase (ih (Nat.le_of_succ_le_succ hle))

/-- A way up gets to each of its classes in no more steps than it is long. -/
theorem inheritsWithin_of_isChain {way : List ProgramClass}
    (h : (c :: way).IsChain fun c b => b ∈ t.bases c) (hd : d ∈ c :: way) :
    t.InheritsWithin way.length c d := by
  induction way generalizing c with
  | nil =>
      rw [List.mem_singleton.mp hd]
      exact .self _ c
  | cons b way ih =>
      obtain ⟨hb, hrest⟩ := List.isChain_cons_cons.mp h
      rcases List.mem_cons.mp hd with rfl | hd
      · exact .self _ d
      · exact .base hb (ih hrest hd)

/-- Whatever a class inherits from, there is a way up to it that goes past
no class twice. -/
theorem exists_way (h : t.Inherits c d) : ∃ way,
    (c :: way).IsChain (fun c b => b ∈ t.bases c) ∧ (c :: way).Nodup ∧
      (c :: way).getLast? = some d := by
  induction h using ReflTransGen.head_induction_on with
  | refl => exact ⟨[], .singleton d, List.nodup_singleton d, rfl⟩
  | @head c b hb _ ih =>
      obtain ⟨way, hchain, hnodup, hlast⟩ := ih
      by_cases hc : c ∈ b :: way
      -- the way from the base comes past the class itself, and what follows is
      -- a way from there
      · obtain ⟨before, rest, hsplit⟩ := List.append_of_mem hc
        rw [hsplit] at hchain hnodup hlast
        refine ⟨rest, hchain.right_of_append, hnodup.of_append_right, ?_⟩
        rwa [List.getLast?_append_cons] at hlast
      · exact ⟨b :: way, .cons_cons hb hchain, List.nodup_cons.mpr ⟨hc, hnodup⟩,
          by rwa [List.getLast?_cons_cons]⟩

/-- A class that is inherited from is never further away than there are other
classes on the chain, so the depth is enough for every class with a chain of no
more than seventeen. -/
theorem inheritsWithin_of_length (hk : t.Keyed) (hspelled : t.Spelled)
    (hc : t.Declares c) (hlength : (t.classChain c).length ≤ n + 1)
    (h : t.Inherits c d) : t.InheritsWithin n c d := by
  obtain ⟨way, hchain, hnodup, hlast⟩ := exists_way h
  have hsubset : c :: way ⊆ t.classChain c := fun e he =>
    (mem_classChain hk hspelled hc).mpr
      (inheritsWithin_of_isChain hchain he).inherits
  have hle : way.length + 1 ≤ (t.classChain c).length :=
    (hnodup.subperm hsubset).length_le
  exact (inheritsWithin_of_isChain hchain (List.mem_of_getLast? hlast)).mono
    (by omega)

end Symbols

/-- The bounded search and the closure. If nothing that a class inherits
from is further away than the depth, the class is a record exactly if it is
not an enum and it inherits from a class that is a record by its own
declaration, or is one. -/
theorem isRecord_iff_inherits (p : Program) {c : ProgramClass}
    (hnear : ∀ d, (Symbols.ofProgram p).Inherits c d →
      (Symbols.ofProgram p).InheritsWithin maxBaseDepth c d) :
    (Symbols.ofProgram p).isRecord c = true ↔
    (Symbols.ofProgram p).enumType c = none ∧
      ∃ d, (Symbols.ofProgram p).Inherits c d ∧ d.decl.isRecord = true := by
  rw [Symbols.isRecord_iff_within]
  refine and_congr_right fun _ => exists_congr fun d =>
    and_congr_left fun _ => ?_
  exact ⟨Symbols.InheritsWithin.inherits, hnear d⟩

namespace Sample

def rungNames : List String :=
  ["Q", "P", "O", "N", "M", "L", "K", "J", "I", "H", "G", "F", "E",
    "D", "C", "B", "A"]

def rungCls (id base : String) : ClassDef :=
  cls id [base] (if id = "A" then [field "size" (name "int")] else [.other])

/-- A ring of seventeen classes, of which the last alone declares a field. -/
def rungClasses : List ClassDef :=
  List.zipWith rungCls rungNames (rungNames.tail ++ ["Q"])

def rung (id base : String) : ProgramClass :=
  within rungClasses (rungCls id base)

theorem rung_chain :
    (Symbols.ofProgram (hierarchy rungClasses)).classChain (rung "Q" "P") =
    rungClasses.reverse.map (within rungClasses) := by
  rw [hierarchy, symbols_source]
  rfl

theorem rung_enumType :
    (Symbols.ofProgram (hierarchy rungClasses)).enumType
    (rung "Q" "P") = none := by
  rw [hierarchy, symbols_source]
  rfl

/-- The first class of the ring is a record by the last one, which is as far
away as the depth. -/
theorem rung_isRecord :
    (∀ d, (Symbols.ofProgram (hierarchy rungClasses)).Inherits
      (rung "Q" "P") d →
      (Symbols.ofProgram (hierarchy rungClasses)).InheritsWithin maxBaseDepth
        (rung "Q" "P") d) ∧
    (Symbols.ofProgram (hierarchy rungClasses)).isRecord (rung "Q" "P") = true ∧
    ∀ c ∈ rungClasses, c.isRecord = true → c.name = "A" := by
  have hk := Symbols.keyed_ofProgram (hierarchy rungClasses)
  have hspelled : (Symbols.ofProgram (hierarchy rungClasses)).Spelled :=
    hierarchy_spelled (by decide) (by decide)
  have hdeclared : (Symbols.ofProgram (hierarchy rungClasses)).Declares
      (rung "Q" "P") :=
    ⟨has_source _, rfl⟩
  have hnear : ∀ d, (Symbols.ofProgram (hierarchy rungClasses)).Inherits
      (rung "Q" "P") d →
      (Symbols.ofProgram (hierarchy rungClasses)).InheritsWithin maxBaseDepth
      (rung "Q" "P") d :=
    fun _ => Symbols.inheritsWithin_of_length hk hspelled hdeclared
      (by rw [rung_chain]; decide)
  have hinherits :
      (Symbols.ofProgram (hierarchy rungClasses)).Inherits (rung "Q" "P")
      (rung "A" "Q") := by
    rw [← Symbols.mem_classChain hk hspelled hdeclared, rung_chain]
    exact List.mem_of_head? rfl
  exact ⟨hnear, (isRecord_iff_inherits (hierarchy rungClasses) hnear).mpr
    ⟨rung_enumType, rung "A" "Q", hinherits, by decide⟩, by decide⟩

end Sample

end BridgeBindings
