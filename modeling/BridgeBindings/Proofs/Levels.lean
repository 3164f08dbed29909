import BridgeBindings.Proofs.Samples
import BridgeBindings.Proofs.Termination

/-!
# More levels change nothing

A resolution that does not run out of levels does not see how many there are:
with one more it takes the same steps to the same end. Together with
`levels_end` this makes the number of levels irrelevant once it covers what is
left free, and `resolution_ends` states what that means for a program.
-/

namespace BridgeBindings

open Syntax

/-- The second step does what the first one does, unless that runs
out of levels. -/
def Below {α : Type} (step step' : Resolve α) : Prop :=
  ∀ s, (step s).1 ≠ .error .exhausted → step' s = step s

namespace Below

variable {α β γ : Type} {step step' : Resolve α}

theorem refl (step : Resolve α) : Below step step := fun _ _ => rfl

theorem exhausted : Below (throw .exhausted : Resolve α) step :=
  fun _ h => absurd rfl h

theorem bind {f f' : α → Resolve β} (hx : Below step step')
    (hf : ∀ a, Below (f a) (f' a)) : Below (step >>= f) (step' >>= f') := by
  intro s h
  rw [run_bind] at h ⊢
  rw [run_bind]
  have hsame := hx s
  rcases hr : step s with ⟨e | a, s'⟩ <;> rw [hr] at h hsame
  · rw [hsame fun he => h (by cases he; rfl)]
  · rw [hsame fun h => by cases h]
    exact hf a s' h

theorem map {f : α → β} (h : Below step step') :
    Below (f <$> step) (f <$> step') := by
  rw [map_eq_pure_bind, map_eq_pure_bind]
  exact h.bind fun _ => refl _

theorem mapM {xs : List γ} {f f' : γ → Resolve α}
    (h : ∀ x, Below (f x) (f' x)) : Below (xs.mapM f) (xs.mapM f') := by
  induction xs with
  | nil => exact refl _
  | cons x xs ih =>
      rw [List.mapM_cons, List.mapM_cons]
      exact (h x).bind fun _ => ih.bind fun _ => refl _

theorem foldlM {xs : List γ} {f f' : α → γ → Resolve α}
    (h : ∀ a x, Below (f a x) (f' a x)) (a : α) :
    Below (xs.foldlM f a) (xs.foldlM f' a) := by
  induction xs generalizing a with
  | nil => exact refl _
  | cons x xs ih =>
      rw [List.foldlM_cons, List.foldlM_cons]
      exact (h a x).bind fun b => ih b

theorem ite {c : Prop} [Decidable c] {other other' : Resolve α}
    (h : Below step step') (h' : Below other other') :
    Below (if c then step else other) (if c then step' else other') := by
  split
  · exact h
  · exact h'

theorem withClass (key : StructKey) (h : Below step step') :
    Below (Resolve.withClass key step) (Resolve.withClass key step') := by
  intro s hs
  have hsame := h (s.entering key) hs
  show ((step' (s.entering key)).1, (step' (s.entering key)).2.leaving key) = _
  rw [hsame]
  rfl

theorem withAlias (name : String) (h : Below step step') :
    Below (Resolve.withAlias name step) (Resolve.withAlias name step') := by
  intro s hs
  have hsame := h (s.expanding name) hs
  show ((step' (s.expanding name)).1,
      (step' (s.expanding name)).2.expanded name) = _
  rw [hsame]
  rfl

end Below

/-! ## Annotations -/

section Annotations

variable {site : Site} {names names' : Names}

theorem Plan.run_below {α : Type} (p : Plan α)
    (h : ∀ q, Below (names.answer q) (names'.answer q)) :
    Below (p.run names) (p.run names') :=
  (Below.mapM h).bind fun _ => Below.refl _

theorem readExpr_below
    (h : ∀ q, Below (names.answer q) (names'.answer q)) (e : Expr) :
    Below (readExpr names site e) (readExpr names' site e) := by
  obtain ⟨p, hp, _⟩ := (readExpr_follows site).1 e
  rw [show readExpr names site e = p.run names from hp _,
    show readExpr names' site e = p.run names' from hp _]
  exact p.run_below h

variable {named named' : Nat → String → Resolve TypeRef}
  (h : ∀ row dotted, Below (named row dotted) (named' row dotted))

include h

theorem readText_below (levels row : Nat) (text : String) :
    Below (readText named site levels row text)
      (readText named' site levels row text) := by
  induction levels generalizing row text with
  | zero => exact Below.exhausted
  | succ levels ih =>
      rw [readText.eq_def, readText.eq_def named']
      dsimp only
      cases readExpression (Text.trim text) with
      | error _ => exact Below.refl _
      | ok e =>
          refine (readExpr_below (fun q => ?_) e).map
          rcases q with ⟨row, dotted | text⟩
          · exact h row dotted
          · exact ih row text

theorem readAnnotation_below (e : Expr) :
    Below (annotationType named site e) (annotationType named' site e) := by
  refine (readExpr_below (fun q => ?_) e).map
  rcases q with ⟨row, dotted | text⟩
  · exact h row dotted
  · dsimp only [Names.answer]
    exact readText_below h _ row text

end Annotations

/-! ## Classes and aliases -/

/-- One expansion does what the other does, unless that runs out of levels. -/
structure Expansion.Below (expand expand' : Expansion) : Prop where
  cls : ∀ c, BridgeBindings.Below (expand.cls c) (expand'.cls c)
  aliased : ∀ site scope name value,
    BridgeBindings.Below (expand.aliased site scope name value)
    (expand'.aliased site scope name value)

section Classes

variable {t : Symbols} {expand expand' : Expansion} (h : expand.Below expand')

include h

theorem structRef_below (owner : String) (c : ProgramClass) :
    Below (structRef expand owner c) (structRef expand' owner c) :=
  (h.cls c).bind fun _ => Below.refl _

theorem namedType_below (site : Site) (row : Nat) (dotted : String) :
    Below (namedType t expand site row dotted)
      (namedType t expand' site row dotted) := by
  unfold namedType
  cases t.lookup site.scope dotted with
  | none => exact Below.refl _
  | some symbol =>
      cases symbol with
      | cls c =>
          dsimp only
          cases t.enumType c with
          | some type => exact Below.refl _
          | none => exact structRef_below h _ c
      | «alias» scope name value => exact h.aliased site scope name value
      | function scope decl => exact Below.refl _
      | module scope => exact Below.refl _
      | external name => exact Below.refl _

theorem annotation_below (site : Site) (e : Expr) :
    Below (annotationWith t expand site e) (annotationWith t expand' site e) :=
  readAnnotation_below (namedType_below h site) e

theorem expandAlias_below (site : Site) (scope : Scope) (name : String)
    (value : Expr) : Below (expandAlias t expand site scope name value)
      (expandAlias t expand' site scope name value) :=
  (Below.refl _).bind fun _ =>
    Below.ite (Below.refl _) (Below.withAlias _ (annotation_below h _ value))

theorem collectFields_below (c : ProgramClass) :
    Below (collectFields t expand c) (collectFields t expand' c) := by
  refine (Below.foldlM (fun _ b => (h.cls b).bind fun _ => Below.refl _) _).bind
    fun _ => ?_
  refine (Below.foldlM (fun _ f => ?_) _).bind fun _ => Below.refl _
  exact ((annotation_below h _ f.typeExpr).bind fun _ => Below.refl _).bind
    fun _ => Below.refl _

theorem resolveClass_below (c : ProgramClass) :
    Below (resolveClass t expand c) (resolveClass t expand' c) := by
  refine (Below.refl _).bind fun _ => (Below.refl _).bind fun _ =>
    (Below.refl _).bind fun _ => ?_
  refine Below.ite (Below.refl _) (Below.withClass _ ?_)
  exact (collectFields_below h c).bind fun _ => Below.refl _

end Classes

/-! ## Levels -/

variable {t : Symbols}

theorem levels_succ_below (n : Nat) :
    Expansion.Below ⟨classAt t n, aliasAt t n⟩
      ⟨classAt t (n + 1), aliasAt t (n + 1)⟩ := by
  induction n with
  | zero => exact ⟨fun _ => Below.exhausted, fun _ _ _ _ => Below.exhausted⟩
  | succ n ih =>
      rw [levels_succ t n, levels_succ t (n + 1)]
      refine ⟨fun c => ?_, fun site scope name value => ?_⟩
      · exact resolveClass_below ih c
      · exact expandAlias_below ih site scope name value

theorem Below.trans {α : Type} {a b c : Resolve α} (hab : Below a b)
    (hbc : Below b c) : Below a c := by
  intro s h
  have hsame := hab s h
  rw [hbc s (by rw [hsame]; exact h), hsame]

theorem levels_below {n m : Nat} (hnm : n ≤ m) :
    Expansion.Below ⟨classAt t n, aliasAt t n⟩ ⟨classAt t m, aliasAt t m⟩ := by
  induction hnm with
  | refl => exact ⟨fun _ => Below.refl _, fun _ _ _ _ => Below.refl _⟩
  | step _ ih =>
      have hs := levels_succ_below (t := t)
      exact ⟨fun c => (ih.cls c).trans ((hs _).cls c),
        fun site scope name value =>
        (ih.aliased site scope name value).trans
          ((hs _).aliased site scope name value)⟩

/-- A step that comes to an end: with an answer, with a fault that stops it, or
in a breakdown. -/
def Comes {α : Type} (step : Resolve α) (s : Store) : Prop :=
  (∃ a after, step s = (.ok a, after)) ∨
    (∃ f after, step s = (.error (.fault f), after)) ∨
    ∃ b after, step s = (.error (.broken b), after)

theorem comes_of_keeps {α : Type} {step : Resolve α} {n : Nat} {s : Store}
    (hn : t.free s < n)
    (h : Keeps (room t n) InTime Always step fun _ _ => True) :
    Comes step s := by
  have hend := (h s hn trivial).2.2
  rcases hr : step s with ⟨e | a, after⟩
  · rw [hr] at hend
    cases e with
    | fault f => exact .inr (.inl ⟨f, after, hr⟩)
    | broken b => exact .inr (.inr ⟨b, after, hr⟩)
    | exhausted => exact absurd rfl hend
  · exact .inl ⟨a, after, hr⟩

theorem Below.same {α : Type} {step step' : Resolve α} {s : Store}
    (h : Below step step') (hc : Comes step s) : step' s = step s := by
  refine h s fun he => ?_
  rcases hc with ⟨a, after, hr⟩ | ⟨f, after, hr⟩ | ⟨b, after, hr⟩ <;>
    rw [hr] at he <;> cases he

/-- Resolving a class of a program and reading an annotation in one of its
scopes come to an end from every store, whatever is being expanded in it, and
more levels give the same end. -/
theorem resolution_ends (p : Program) (s : Store) (more : Nat) :
    (∀ c, (Symbols.ofProgram p).Declares c →
      Comes ((Symbols.ofProgram p).resolve c) s ∧
      classAt (Symbols.ofProgram p) ((Symbols.ofProgram p).levels + more) c s =
        (Symbols.ofProgram p).resolve c s) ∧
    ∀ site e, (Symbols.ofProgram p).Has site.scope →
      Comes (Symbols.annotation (Symbols.ofProgram p) site e) s ∧
      annotationWith (Symbols.ofProgram p)
          ⟨classAt (Symbols.ofProgram p) ((Symbols.ofProgram p).levels + more),
            aliasAt (Symbols.ofProgram p) ((Symbols.ofProgram p).levels + more)⟩
              site e s =
        Symbols.annotation (Symbols.ofProgram p) site e s := by
  have hk := Symbols.keyed_ofProgram p
  have hfree := (Symbols.ofProgram p).free_lt_levels s
  have hends := levels_end hk (Symbols.ofProgram p).levels
  have hbelow := levels_below (t := Symbols.ofProgram p)
    (Nat.le_add_right (Symbols.ofProgram p).levels more)
  refine ⟨fun c hc => ?_, fun site e hs => ?_⟩
  · have hcomes : Comes ((Symbols.ofProgram p).resolve c) s :=
      comes_of_keeps hfree (hends.cls c hc)
    exact ⟨hcomes, (hbelow.cls c).same hcomes⟩
  · have hcomes : Comes (Symbols.annotation (Symbols.ofProgram p) site e) s :=
      comes_of_keeps hfree (annotation_ends hk hends hs e)
    exact ⟨hcomes, (annotation_below hbelow site e).same hcomes⟩

namespace Sample

/-- A class that is its own base and mentions itself in quotes. -/
def selfCls : ClassDef := cls "A" ["A"] [field "a" (quoted "A")]

def selfScope : Scope := .ofSource (source "main" "main" [.cls selfCls])

def selfProgram : Program := program [source "main" "main" [.cls selfCls]]

/-- A class that is its own base and mentions itself: resolving it
comes to an end. -/
theorem self_ends :
    (Symbols.ofProgram selfProgram).Declares ⟨selfScope, selfCls⟩ ∧
    Comes ((Symbols.ofProgram selfProgram).resolve ⟨selfScope, selfCls⟩)
      (.ofPackages ["main"] "main") :=
  have hself : (Symbols.ofProgram selfProgram).Declares ⟨selfScope, selfCls⟩ :=
    ⟨has_source _, rfl⟩
  ⟨hself,
    ((resolution_ends selfProgram (.ofPackages ["main"] "main") 0).1 _ hself).1⟩

end Sample

end BridgeBindings
