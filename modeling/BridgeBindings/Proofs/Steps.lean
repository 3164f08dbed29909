import BridgeBindings.Proofs.Contract
import BridgeBindings.Resolve.Class

/-!
# The steps of a resolution

What the store looks like after the small steps that every resolution is made
of: registering a class, and marking what is being expanded.
-/

namespace BridgeBindings

namespace Store

/-- The struct that a class is registered for. -/
def structOf (s : Store) (c : ProgramClass) : Struct :=
  ((s.draft c.package).get? c.name).getD
    ((s.draft c.package).placeholder c.name c.module c.doc)

/-- The log after a class has been registered. -/
def registering (s : Store) (c : ProgramClass) : Store :=
  match (s.draft c.package).duplicate? c.name c.module with
  | some r => s.note r
  | none => s

/-- The store after a class has been registered. -/
def registered (s : Store) (c : ProgramClass) : Store :=
  (s.registering c).setDraft c.package
    ((s.draft c.package).register c.name c.module c.doc)

/-- The store with a class marked as being resolved. -/
def entering (s : Store) (key : StructKey) : Store :=
  { s with classes := key :: s.classes }

/-- The store with the mark of a class taken back. -/
def leaving (s : Store) (key : StructKey) : Store :=
  { s with classes := s.classes.erase key }

/-- The store with an alias marked as being expanded. -/
def expanding (s : Store) (name : String) : Store :=
  { s with aliases := name :: s.aliases }

/-- The store with the mark of an alias taken back. -/
def expanded (s : Store) (name : String) : Store :=
  { s with aliases := s.aliases.erase name }

theorem registered_marks (s : Store) (c : ProgramClass) :
    (s.registered c).classes = s.classes ∧
    (s.registered c).aliases = s.aliases := by
  unfold registered registering
  split <;> exact ⟨rfl, rfl⟩

theorem registered_drafts (s : Store) (c : ProgramClass) :
    (s.registered c).drafts =
      s.drafts.insert c.package
        ((s.draft c.package).register c.name c.module c.doc) := by
  unfold registered registering
  split <;> rfl

end Store

theorem register_run (c : ProgramClass) (s : Store) :
    Resolve.register c s = (.ok (s.structOf c), s.registered c) := by
  have hdraft : Resolve.draft c.package s = (.ok (s.draft c.package), s) := rfl
  unfold Resolve.register
  rw [run_bind, hdraft]
  dsimp only
  unfold Store.registered Store.registering
  cases (s.draft c.package).duplicate? c.name c.module <;> rfl

namespace Keeps

variable {ε α : Type} {C C' : Contract} {E : ε → Prop} {P P' : Store → Prop}
  {Q R : α → Store → Prop}

/-- A step whose outcome can be told. -/
theorem run {step : ExceptT ε (StateM Store) α} {answer : Store → α}
    {after : Store → Store} (hrun : ∀ s, step s = (.ok (answer s), after s))
    (h : ∀ s, C.holds s → P s →
      C.leads s (after s) ∧ C.holds (after s) ∧ Q (answer s) (after s)) :
    Keeps C E P step Q := by
  intro s hs hp
  rw [hrun]
  exact h s hs hp

end Keeps

end BridgeBindings
