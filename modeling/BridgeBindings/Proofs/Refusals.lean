import BridgeBindings.Proofs.Origins

/-!
# What is unresolvable is never resolved

The account of faults rests on one notion, the annotation that cannot be
resolved by what it says itself. It is exact: such an annotation is never read
to the end, in no store and whatever became of other annotations before. For one
that is malformed the walk follows the way in which it is; what is wrong inside
of quotes comes up when the quoted text is asked for, and a reading that ends
has asked all its questions.
-/

namespace BridgeBindings

open Syntax

/-- A step that never comes to an answer. -/
def Refuses {α : Type} (step : Resolve α) : Prop :=
  ∀ s a s', step s ≠ (.ok a, s')

namespace Refuses

variable {α β γ : Type} {step : Resolve α}

theorem throw (stop : Stop) : Refuses (MonadExcept.throw stop : Resolve α) :=
  fun _ _ _ h => by cases h

theorem stop (f : TypeFault) : Refuses (Resolve.stop f : Resolve α) :=
  .throw (.fault f)

theorem first (h : Refuses step) (f : α → Resolve β) :
    Refuses (step >>= f) := by
  intro s b s' hb
  obtain ⟨a, s₁, ha, -⟩ := ok_of_bind hb
  exact h s a s₁ ha

theorem second {f : α → Resolve β} (h : ∀ a, Refuses (f a)) :
    Refuses (step >>= f) := by
  intro s b s' hb
  obtain ⟨a, s₁, -, hf⟩ := ok_of_bind hb
  exact h a s₁ b s' hf

theorem map (h : Refuses step) (f : α → β) : Refuses (f <$> step) := by
  rw [map_eq_pure_bind]
  exact h.first _

theorem mapM {xs : List γ} {f : γ → Resolve α} {x : γ} (hx : x ∈ xs)
    (h : Refuses (f x)) : Refuses (xs.mapM f) := by
  induction xs with
  | nil => exact absurd hx List.not_mem_nil
  | cons y ys ih =>
      rw [List.mapM_cons]
      rcases List.mem_cons.mp hx with rfl | hx
      · exact h.first _
      · exact .second fun _ => (ih hx).first _

theorem foldlM {xs : List γ} {f : β → γ → Resolve β} {x : γ} (hx : x ∈ xs)
    (h : ∀ b, Refuses (f b x)) (b : β) : Refuses (xs.foldlM f b) := by
  induction xs generalizing b with
  | nil => exact absurd hx List.not_mem_nil
  | cons y ys ih =>
      rw [List.foldlM_cons]
      rcases List.mem_cons.mp hx with rfl | hx
      · exact (h b).first _
      · exact .second fun b => ih hx b

end Refuses

/-- Of an answer that there never is anything may be said. -/
theorem Keeps.refused {α : Type} {C : Contract} {E : Stop → Prop}
    {P : Store → Prop} {step : Resolve α} {Q Q' : α → Store → Prop}
    (h : Keeps C E P step Q) (hr : Refuses step) : Keeps C E P step Q' := by
  intro s hs hp
  obtain ⟨hleads, hholds, hends⟩ := h s hs hp
  refine ⟨hleads, hholds, ?_⟩
  rcases hrun : step s with ⟨e | a, s'⟩
  · rw [hrun] at hends
    exact hends
  · exact absurd hrun (hr s a s')

/-! ## Arguments -/

section Arguments

variable {site : Site} {read : Expr → Resolve Reading} {name dotted : String}
    {args : List Expr}

theorem builtin_refuses (row : Nat) (h : Undefined site.scope name dotted) :
    Refuses (builtin site row name dotted) := by
  obtain ⟨hnone, rfl, himports⟩ := h
  unfold builtin
  rw [hnone]
  dsimp only
  rw [if_neg (by simp [himports])]
  exact .stop _

/-- A name that takes no arguments is read as if it had none. -/
theorem generic_eq_builtin (row : Nat) (h : takesArguments name = false)
    (arguments : List (Resolve Reading)) :
    generic site row name dotted args arguments =
    builtin site row name dotted := by
  simp only [takesArguments, Bool.or_eq_false_iff, decide_eq_false_iff_not] at h
  obtain ⟨⟨⟨⟨⟨⟨hOptional, hUnion⟩, hWrapper⟩, hLiteral⟩, hSequence⟩, hTuple⟩,
      hMapping⟩ := h
  unfold generic
  rw [if_neg hOptional, if_neg hUnion, hWrapper, if_neg hLiteral, hSequence,
    hTuple, hMapping]
  rfl

theorem argumentType_refuses {i : Nat} {arg : Expr} (hi : args[i]? = some arg)
    (h : Refuses (read arg)) : Refuses (argumentType (args.map read) i) := by
  unfold argumentType
  rw [List.getElem?_map, hi]
  exact h.map _

/-- A name of the language reads the arguments that it needs. -/
theorem generic_refuses (row : Nat) {arg : Expr}
    (harg : arg ∈ selected name args args) (h : Refuses (read arg)) :
    Refuses (generic site row name dotted args (args.map read)) := by
  have htake : ∀ n, arg ∈ args.take n → ∃ i < n, args[i]? = some arg := by
    intro n hmem
    obtain ⟨i, hi, rfl⟩ := List.mem_take_iff_getElem.mp hmem
    exact ⟨i, (Nat.lt_min.mp hi).1,
      List.getElem?_eq_getElem (Nat.lt_min.mp hi).2⟩
  have hone : arg ∈ args.take 1 → args[0]? = some arg := by
    intro hmem
    obtain ⟨i, hi, harg⟩ := htake 1 hmem
    rwa [Nat.lt_one_iff.mp hi] at harg
  have hall : arg ∈ args → Refuses ((args.map read).mapM id) := fun hmem =>
    .mapM (List.mem_map.mpr ⟨arg, hmem, rfl⟩) h
  unfold generic
  unfold selected at harg
  by_cases hOptional : name = "Optional"
  · simp only [if_pos hOptional] at harg ⊢
    exact (argumentType_refuses (hone harg) h).first _
  simp only [if_neg hOptional] at harg ⊢
  by_cases hUnion : name = "Union"
  · simp only [if_pos hUnion] at harg ⊢
    exact (hall harg).first _
  simp only [if_neg hUnion] at harg ⊢
  by_cases hWrapper : wrapperNames.contains name = true
  · simp only [if_pos hWrapper] at harg ⊢
    exact argumentType_refuses (hone harg) h
  simp only [if_neg hWrapper] at harg ⊢
  by_cases hLiteral : name = "Literal"
  · simp only [if_pos hLiteral] at harg
    exact absurd harg List.not_mem_nil
  simp only [if_neg hLiteral] at harg ⊢
  by_cases hSequence : sequenceNames.contains name = true
  · simp only [if_pos hSequence] at harg ⊢
    exact (argumentType_refuses (hone harg) h).first _
  simp only [if_neg hSequence] at harg ⊢
  by_cases hTuple : tupleNames.contains name = true
  · simp only [if_pos hTuple] at harg ⊢
    by_cases hopen : isOpenTuple args = true
    · simp only [if_pos hopen] at harg ⊢
      exact (argumentType_refuses (hone harg) h).first _
    simp only [if_neg hopen] at harg ⊢
    rw [readTypes_eq]
    exact ((hall harg).map _).first _
  simp only [if_neg hTuple] at harg ⊢
  by_cases hMapping : mappingNames.contains name = true
  · simp only [if_pos hMapping] at harg ⊢
    obtain ⟨i, hi, harg⟩ := htake 2 harg
    have hplace : i = 0 ∨ i = 1 := by omega
    rcases hplace with rfl | rfl
    · exact (argumentType_refuses harg h).first _
    · exact .second fun key => (argumentType_refuses harg h).first _
  simp only [if_neg hMapping] at harg
  exact absurd harg List.not_mem_nil

end Arguments

/-! ## Annotations -/

section Annotations

variable {names : Names} {site : Site} {e : Expr}

/-- A reading that ends has asked everything that it asks, so no question of it
stays without an answer. -/
theorem readExpr_refuses {a : Ask} (ha : a ∈ asks site.scope e)
    (h : ∀ row, Refuses (names.answer (row, a))) :
    Refuses (readExpr names site e) := by
  obtain ⟨p, hp, fits⟩ := (readExpr_follows site).1 e
  rw [show readExpr names site e = p.run names from hp names]
  unfold Plan.run
  cases he : p.ending with
  | error stop => exact .second fun _ => .throw stop
  | ok f =>
      obtain ⟨row, hrow⟩ := fits.whole f he a ha
      exact (Refuses.mapM hrow (h row)).first _

end Annotations

/-! ## Malformed annotations -/

/-- Quoted texts are read, with any number of levels. -/
def Quoting (names : Names) (site : Site) : Prop :=
  ∀ row text, ∃ levels, names.forward row text =
    readText names.named site levels row text

theorem quoting_annotation (named : Nat → String → Resolve TypeRef)
    (site : Site) :
    Quoting ⟨named, fun row text =>
      readText named site (text.length + 1) row text⟩ site := by
  intro row text
  refine ⟨text.length + 1, ?_⟩
  dsimp only

/-- A quoted text has an answer only if what it says is read to the end. -/
theorem forward_refuses {names : Names} {site : Site} {text : String}
    (hq : Quoting names site)
    (h : ∀ inner, readExpression (Text.trim text) = .ok inner →
      ∀ inside : Names, Quoting inside site → inside.named = names.named →
        Refuses (readExpr inside site inner)) (row : Nat) :
    Refuses (names.answer (row, .text text)) := by
  obtain ⟨levels, hlevels⟩ := hq row text
  rw [Names.answer, hlevels]
  cases levels with
  | zero => exact .throw .exhausted
  | succ levels =>
      rw [readText.eq_def]
      dsimp only
      cases he : readExpression (Text.trim text) with
      | error => exact .stop _
      | ok inner =>
          exact (h inner he ⟨names.named, readText names.named site levels⟩
            (fun _ _ => ⟨levels, rfl⟩) rfl).map _

theorem malformed_refuses {site : Site} {e : Expr} (h : Malformed site.scope e)
    {names : Names} (hq : Quoting names site) :
    Refuses (readExpr names site e) := by
  generalize hscope : site.scope = scope at h
  -- by induction on what is wrong: each case says on which way of the reading
  -- the wrong part stands, and what is read before it may do what it likes
  induction h generalizing names with
  | @unsupported e asName noName =>
      rw [readExpr_asName asName]
      unfold plain
      rw [noName]
      exact (Refuses.throw _).map _
  | undefined asName named left unknown =>
      subst hscope
      rw [readExpr_asName asName]
      unfold plain
      rw [named]
      dsimp only
      rw [left]
      exact (builtin_refuses _ unknown).map _
  | leftSide _ ih =>
      rw [readExpr]
      exact (ih hq).first _
  | rightSide _ ih =>
      rw [readExpr]
      exact .second fun _ => (ih hq).first _
  | unsupportedHead noName =>
      rw [readExpr_subscript]
      unfold applied
      rw [noName]
      exact (Refuses.throw _).map _
  | undefinedHead named left noGeneric unknown =>
      subst hscope
      rw [readExpr_subscript]
      unfold applied
      rw [named]
      dsimp only
      rw [left]
      dsimp only
      rw [generic_eq_builtin _ noGeneric]
      exact (builtin_refuses _ unknown).map _
  | argument named left isRead _ ih =>
      subst hscope
      rw [readExpr_subscript]
      unfold applied
      rw [named]
      dsimp only
      rw [left]
      exact (generic_refuses _ isRead (ih hq)).map _
  | torn =>
      rw [readExpr]
      exact .throw _
  | unreadable asked unread =>
      subst hscope
      refine readExpr_refuses asked (forward_refuses hq fun inner hinner => ?_)
      rw [unread] at hinner
      cases hinner
  | quoted asked parsed _ ih =>
      subst hscope
      refine readExpr_refuses asked
        (forward_refuses hq fun inner hinner inside hinside _ => ?_)
      rw [parsed] at hinner
      cases hinner
      exact ih hinside

/-! ## Names that stand for no type -/

theorem namedType_refuses {t : Symbols} {expand : Expansion} {site : Site}
    {dotted : String}
    (h : (t.lookup site.scope dotted).any Symbol.isType = false) (row : Nat) :
    Refuses (namedType t expand site row dotted) := by
  unfold namedType
  cases hl : t.lookup site.scope dotted with
  | none => exact .stop _
  | some symbol =>
      rw [hl, Option.any_some] at h
      cases symbol
      all_goals first
        | exact .stop _
        | cases h

theorem mention_refuses {site : Site} {e : Expr} {dotted : String}
    (h : Mentions site.scope e dotted) {names : Names} (hq : Quoting names site)
    (hnamed : ∀ row, Refuses (names.named row dotted)) :
    Refuses (readExpr names site e) := by
  induction h generalizing names with
  | name asked => exact readExpr_refuses asked hnamed
  | text asked parsed _ ih =>
      refine readExpr_refuses asked
        (forward_refuses hq fun inner hinner inside hinside hsame => ?_)
      rw [parsed] at hinner
      cases hinner
      exact ih hinside (hsame ▸ hnamed)

/-- An annotation that cannot be resolved never is. -/
theorem annotationWith_refuses {t : Symbols} {expand : Expansion}
    {site : Site} {e : Expr} (h : t.Unresolvable site.scope e) :
    Refuses (annotationWith t expand site e) := by
  have hq := quoting_annotation (namedType t expand site) site
  rcases h with hbad | ⟨dotted, hmentioned, hnone⟩
  · exact (malformed_refuses hbad hq).map _
  · exact (mention_refuses hmentioned hq (namedType_refuses hnone)).map _

/-! ## Classes -/

/-- A class that has a field of its own whose annotation cannot be resolved. -/
def Symbols.Flawed (t : Symbols) (c : ProgramClass) : Prop :=
  ∃ f ∈ c.decl.fields, t.Unresolvable c.scope f.typeExpr

/-- The fields of such a class are never all collected. -/
theorem collectFields_refuses {t : Symbols} {expand : Expansion}
    {c : ProgramClass} (h : t.Flawed c) :
    Refuses (collectFields t expand c) := by
  obtain ⟨f, hf, hbad⟩ := h
  have hown : Refuses (ownField t expand c f) :=
    Refuses.first
      (@annotationWith_refuses t expand
        ⟨c.scope, c.package, c.fieldLabel f⟩ _ hbad) _
  exact .second fun inherited =>
    (Refuses.foldlM hf (fun _ => hown.first _) inherited).first _

end BridgeBindings
