import BridgeBindings.Analysis.Run
import Mathlib.Data.List.Forall2

/-!
# Contracts of steps

A resolution is a step on a store that may stop at any point, and whatever it
did before it stopped stays done. So what a proof may say about one comes in
three parts: a property that holds of the store before and after, a relation in
which the two stores stand, and what is known of the answer or of the stop.

The first two are the same for every step of one argument and make up its
contract. The relation is transitive, which is what lets a fact that was
established early survive everything that runs later: such a fact is stable,
and the rules below carry stable facts along.
-/

namespace BridgeBindings

theorem forall₂_left {α β : Type} {R : α → β → Prop} {xs : List α} {ys : List β}
    (h : List.Forall₂ R xs ys) {x : α} (hx : x ∈ xs) : ∃ y ∈ ys, R x y := by
  induction h with
  | nil => exact absurd hx List.not_mem_nil
  | @cons a b _ _ hab _ ih =>
      rcases List.mem_cons.mp hx with rfl | hx
      · exact ⟨b, List.mem_cons_self, hab⟩
      · obtain ⟨y, hy, hr⟩ := ih hx
        exact ⟨y, List.mem_cons_of_mem b hy, hr⟩

theorem forall₂_right {α β : Type} {R : α → β → Prop}
    {xs : List α} {ys : List β} (h : List.Forall₂ R xs ys) {y : β}
    (hy : y ∈ ys) : ∃ x ∈ xs, R x y :=
  forall₂_left h.flip hy

/-- What the steps of one argument may rely on and have to leave behind. -/
structure Contract where
  holds : Store → Prop
  leads : Store → Store → Prop
  refl : ∀ s, leads s s
  trans : ∀ {a b c}, leads a b → leads b c → leads a c

namespace Contract

/-- A fact that no step of the contract takes back. -/
def Stable (C : Contract) (p : Store → Prop) : Prop :=
  ∀ {s s'}, C.leads s s' → p s → p s'

end Contract

/-- What is known when a step has ended: of its answer and the store, or of the
cause that stopped it. -/
def Ends {ε α : Type} (E : ε → Prop) (Q : α → Store → Prop) :
    Except ε α × Store → Prop
  | (.ok a, s) => Q a s
  | (.error e, _) => E e

/-- Nothing but what breaks down stops a step. -/
def Breaking (B : Breakdown → Prop) : Stop → Prop
  | .broken b => B b
  | _ => False

/-- A step that, from every store with `P`, keeps the contract and ends well. -/
def Keeps {ε α : Type} (C : Contract) (E : ε → Prop) (P : Store → Prop)
    (step : ExceptT ε (StateM Store) α) (Q : α → Store → Prop) : Prop :=
  ∀ s, C.holds s → P s →
    C.leads s (step s).2 ∧ C.holds (step s).2 ∧ Ends E Q (step s)

/-- Where a sequence of two steps leads. -/
theorem run_bind {σ ε α β : Type} (step : ExceptT ε (StateM σ) α)
    (f : α → ExceptT ε (StateM σ) β) (s : σ) :
    (step >>= f) s = match step s with
      | (.ok a, s) => f a s
      | (.error e, s) => (.error e, s) := by
  simp only [Bind.bind, ExceptT.bind, ExceptT.mk, StateT.bind, ExceptT.bindCont]
  rcases step s with ⟨_ | _, _⟩ <;> rfl

/-- What a sequence of two steps came through. -/
theorem ok_of_bind {σ ε α β : Type} {step : ExceptT ε (StateM σ) α}
    {f : α → ExceptT ε (StateM σ) β} {s s₂ : σ} {b : β}
    (h : (step >>= f) s = (.ok b, s₂)) :
    ∃ a s₁, step s = (.ok a, s₁) ∧ f a s₁ = (.ok b, s₂) := by
  rw [run_bind] at h
  rcases hr : step s with ⟨e | a, s₁⟩ <;> rw [hr] at h
  · cases h
  · exact ⟨a, s₁, rfl, h⟩

namespace Keeps

variable {ε α β : Type} {C : Contract} {E : ε → Prop} {P P' : Store → Prop}
  {step : ExceptT ε (StateM Store) α} {Q Q' : α → Store → Prop}

theorem pure {a : α} (h : ∀ s, C.holds s → P s → Q a s) :
    Keeps C E P (Pure.pure a) Q :=
  fun s hs hp => ⟨C.refl s, hs, h s hs hp⟩

theorem throw {e : ε} (h : E e) : Keeps C E P (MonadExcept.throw e) Q :=
  fun s hs _ => ⟨C.refl s, hs, h⟩

theorem modify {f : Store → Store} {R : Unit → Store → Prop}
    (h : ∀ s, C.holds s → P s → C.leads s (f s) ∧ C.holds (f s) ∧ R () (f s)) :
    Keeps C E P (modify f) R :=
  fun s hs hp => h s hs hp

theorem get {R : Store → Store → Prop} (h : ∀ s, C.holds s → P s → R s s) :
    Keeps C E P (MonadState.get : ExceptT ε (StateM Store) Store) R :=
  fun s hs hp => ⟨C.refl s, hs, h s hs hp⟩

/-- Looking at the store tells what it is. -/
theorem read : Keeps C E P (MonadState.get : ExceptT ε (StateM Store) Store)
    fun seen s => P s ∧ s = seen := Keeps.get fun _ _ hp => ⟨hp, rfl⟩

theorem bind {f : α → ExceptT ε (StateM Store) β} {R : β → Store → Prop}
    (hx : Keeps C E P step Q) (hf : ∀ a, Keeps C E (Q a) (f a) R) :
    Keeps C E P (step >>= f) R := by
  intro s hs hp
  obtain ⟨hl, hh, he⟩ := hx s hs hp
  rw [run_bind]
  rcases hr : step s with ⟨e | a, s'⟩ <;> rw [hr] at hl hh he
  · exact ⟨hl, hh, he⟩
  · obtain ⟨hl', hh', he'⟩ := hf a s' hh he
    exact ⟨C.trans hl hl', hh', he'⟩

theorem mono (h : Keeps C E P step Q) (hp : ∀ s, C.holds s → P' s → P s)
    (hq : ∀ a s, C.holds s → Q a s → Q' a s) : Keeps C E P' step Q' := by
  intro s hs hp'
  obtain ⟨hl, hh, he⟩ := h s hs (hp s hs hp')
  refine ⟨hl, hh, ?_⟩
  rcases hr : step s with ⟨e | a, s'⟩ <;> rw [hr] at he hh
  · exact he
  · exact hq a s' hh he

theorem pre (h : Keeps C E P step Q) (hp : ∀ s, C.holds s → P' s → P s) :
    Keeps C E P' step Q := h.mono hp fun _ _ _ hq => hq

theorem post (h : Keeps C E P step Q) (hq : ∀ a s, C.holds s → Q a s → Q' a s) :
    Keeps C E P step Q' := h.mono (fun _ _ hp => hp) hq

/-- What is known of a stop may be told in other words. -/
theorem stop {E' : ε → Prop} (h : Keeps C E P step Q) (he : ∀ e, E e → E' e) :
    Keeps C E' P step Q := by
  intro s hs hp
  obtain ⟨hl, hh, hends⟩ := h s hs hp
  refine ⟨hl, hh, ?_⟩
  rcases hr : step s with ⟨e | a, s'⟩ <;> rw [hr] at hends
  · exact he e hends
  · exact hends

/-- What is known of a step from two arguments. -/
theorem both {E' : ε → Prop} (h : Keeps C E P step Q)
    (h' : Keeps C E' P step Q') :
    Keeps C (fun e => E e ∧ E' e) P step fun a s => Q a s ∧ Q' a s := by
  intro s hs hp
  obtain ⟨hl, hh, hends⟩ := h s hs hp
  obtain ⟨-, -, hends'⟩ := h' s hs hp
  refine ⟨hl, hh, ?_⟩
  rcases hr : step s with ⟨e | a, s'⟩ <;> rw [hr] at hends hends'
  · exact ⟨hends, hends'⟩
  · exact ⟨hends, hends'⟩

theorem ite {c : Prop} [Decidable c] {other : ExceptT ε (StateM Store) α}
    (h : c → Keeps C E P step Q) (h' : ¬c → Keeps C E P other Q) :
    Keeps C E P (if c then step else other) Q := by
  split
  · next hc => exact h hc
  · next hc => exact h' hc

theorem map {f : α → β} {R : β → Store → Prop} (hx : Keeps C E P step Q)
    (hf : ∀ a s, C.holds s → Q a s → R (f a) s) :
    Keeps C E P (f <$> step) R := by
  rw [map_eq_pure_bind]
  exact hx.bind fun a => Keeps.pure (hf a)

/-- A stable fact of the store before is one of the store after. -/
theorem carry {p : Store → Prop} (h : Keeps C E P step Q) (hp : C.Stable p) :
    Keeps C E (fun s => P s ∧ p s) step fun a s => Q a s ∧ p s := by
  intro s hs hps
  obtain ⟨hl, hh, he⟩ := h s hs hps.1
  refine ⟨hl, hh, ?_⟩
  rcases hr : step s with ⟨e | a, s'⟩ <;> rw [hr] at he hl
  · exact he
  · exact ⟨he, hp hl hps.2⟩

/-- A step that runs inside of another contract: `enter` leads from the outer
contract into the inner one, `leave` leads back. -/
theorem within {C' : Contract} {P' : Store → Prop} {R : α → Store → Prop}
    (enter leave : Store → Store) (h : Keeps C' E P' step Q)
    (henter : ∀ s, C.holds s → P s → C'.holds (enter s) ∧ P' (enter s))
    (hleave : ∀ s s', C.holds s → P s → C'.leads (enter s) s' → C'.holds s' →
      C.leads s (leave s') ∧ C.holds (leave s') ∧ ∀ a, Q a s' →
      R a (leave s')) :
    Keeps C E P (fun s =>
      ((step (enter s)).1, leave (step (enter s)).2)) R := by
  intro s hs hp
  obtain ⟨hs', hp'⟩ := henter s hs hp
  obtain ⟨hl, hh, he⟩ := h (enter s) hs' hp'
  obtain ⟨hl', hh', hr⟩ := hleave s _ hs hp hl hh
  refine ⟨hl', hh', ?_⟩
  show Ends E R ((step (enter s)).1, leave (step (enter s)).2)
  rcases hx : step (enter s) with ⟨e | a, s'⟩ <;> rw [hx] at he hr
  · exact he
  · exact hr a he

/-! ## What comes in the way -/

theorem lift {E : Stop → Prop} {x : Except Breakdown α}
    (h : ∀ b, x = .error b → E (.broken b)) :
    Keeps C E P (Resolve.lift x) fun a s => P s ∧ x = .ok a := by
  cases x with
  | ok a => exact Keeps.pure fun _ _ hp => ⟨hp, rfl⟩
  | error b => exact Keeps.throw (h b rfl)

theorem expect {E : Stop → Prop} {x : Option Breakdown}
    (h : ∀ b, x = some b → E (.broken b)) :
    Keeps C E P (Resolve.expect x) fun _ s => P s ∧ x = none := by
  cases x with
  | none => exact Keeps.pure fun _ _ hp => ⟨hp, rfl⟩
  | some b => exact Keeps.throw (h b rfl)

/-! ## Lists

Each rule is an induction over the list; what is known of the elements that are
done is stable, so it still holds when the last one is. -/

section Lists

variable {γ : Type} {xs : List γ}

theorem mapM {f : γ → ExceptT ε (StateM Store) β} {R : γ → β → Store → Prop}
    (hR : ∀ x b, C.Stable (R x b))
    (hf : ∀ x ∈ xs, Keeps C E P (f x) fun b s => P s ∧ R x b s) :
    Keeps C E P (xs.mapM f) fun bs s => P s ∧ List.Forall₂ (R · · s) xs bs := by
  induction xs with
  | nil =>
      rw [List.mapM_nil]
      exact Keeps.pure fun _ _ h => ⟨h, .nil⟩
  | cons x xs ih =>
      rw [List.mapM_cons]
      refine (hf x List.mem_cons_self).bind fun b => ?_
      have hrest := ih fun y hy => hf y (List.mem_cons_of_mem x hy)
      refine (hrest.carry (hR x b)).bind fun bs => ?_
      exact Keeps.pure fun _ _ h => ⟨h.1.1, .cons h.2 h.1.2⟩

/-- What holds of the value so far may depend on the elements that are done. -/
theorem foldlM_done {f : β → γ → ExceptT ε (StateM Store) β}
    {J : List γ → β → Store → Prop}
    (hf : ∀ done x, x ∈ xs →
      ∀ b, Keeps C E (J done b) (f b x) (J (done ++ [x])))
    (done : List γ) (b : β) :
    Keeps C E (J done b) (xs.foldlM f b) (J (done ++ xs)) := by
  induction xs generalizing done b with
  | nil =>
      rw [List.foldlM_nil, List.append_nil]
      exact Keeps.pure fun _ _ h => h
  | cons x xs ih =>
      rw [List.foldlM_cons]
      refine (hf done x List.mem_cons_self b).bind fun b' => ?_
      have hrest := ih (fun done y hy => hf done y (List.mem_cons_of_mem x hy))
        (done ++ [x]) b'
      rwa [List.append_assoc, List.singleton_append] at hrest

theorem foldlM {f : β → γ → ExceptT ε (StateM Store) β} {J : β → Store → Prop}
    (hf : ∀ b, ∀ x ∈ xs, Keeps C E (J b) (f b x) J) (b : β) :
    Keeps C E (J b) (xs.foldlM f b) J :=
  foldlM_done (J := fun _ => J) (fun _ x hx b => hf b x hx) [] b

theorem forM {f : γ → ExceptT ε (StateM Store) PUnit} {R : γ → Store → Prop}
    (hP : C.Stable P) (hR : ∀ x, C.Stable (R x))
    (hf : ∀ x ∈ xs, Keeps C E P (f x) fun _ => R x) :
    Keeps C E P (xs.forM f) fun _ s => ∀ x ∈ xs, R x s := by
  induction xs with
  | nil =>
      show Keeps C E P (Pure.pure PUnit.unit) _
      exact Keeps.pure fun _ _ _ x hx => absurd hx List.not_mem_nil
  | cons x xs ih =>
      show Keeps C E P (f x >>= fun _ => xs.forM f) _
      refine ((hf x List.mem_cons_self).carry hP |>.pre fun _ _ h =>
        ⟨h, h⟩).bind fun _ => ?_
      have hrest := ih fun y hy => hf y (List.mem_cons_of_mem x hy)
      refine ((hrest.carry (hR x)).pre fun _ _ h => ⟨h.2, h.1⟩).post ?_
      intro _ s _ h y hy
      rcases List.mem_cons.mp hy with rfl | hy
      · exact h.2
      · exact h.1 y hy

end Lists

end Keeps

end BridgeBindings
