import BridgeBindings.Proofs.Plans

/-!
# The parts that a reading looks at

Reading an annotation looks at some of its parts, and at each of them it does
one thing of its own: it answers, it stops because the part is wrong, or it asks
the one question that the part poses. All else is putting together what has come
of the parts. So what two readings have in common at every part, they have in
common as a whole, if it is something that survives putting steps together.

`readExpr_matches` is the one walk over the definitions of reading that says so,
and `annotation_matches` follows it into quoted texts.
-/

namespace BridgeBindings

open Syntax

/-- Expressions that are read as the name of a type. -/
def readsAsName : Expr → Bool
  | .constant .. | .subscript .. | .binary _ _ .bitOr _ => false
  | _ => true

/-- What stands in the brackets behind a name. -/
def arguments : Expr → List Expr
  | .tuple _ elts => elts
  | e => [e]

/-- Names of the language whose arguments have a meaning of their own. -/
def takesArguments (name : String) : Bool :=
  name = "Optional" || name = "Union" || wrapperNames.contains name ||
    name = "Literal" || sequenceNames.contains name ||
      tupleNames.contains name || mappingNames.contains name

/-- A name left to the language that the language does not know. -/
def Undefined (scope : Scope) (name dotted : String) : Prop :=
  builtinType? name = none ∧ name = dotted ∧ scope.imports.contains name = false

theorem readsAsName_of_dotted {e : Expr} {dotted : String}
    (h : e.dotted? = some dotted) : readsAsName e = true := by
  cases e with
  | name | «attribute» => rfl
  | _ => cases h

theorem arguments_single {index : Expr}
    (h : ∀ at_ elts, index = .tuple at_ elts → False) :
    arguments index = [index] := by
  unfold arguments
  split
  · exact (h _ _ rfl).elim
  · rfl

/-! ## Parts -/

/-- A part of an annotation that is looked at when the annotation is read. -/
inductive Reads (scope : Scope) : Expr → Expr → Prop where
  | whole {e : Expr} : Reads scope e e
  | left {pos : Position} {left right x : Expr} (h : Reads scope left x) :
      Reads scope (.binary pos left .bitOr right) x
  | right {pos : Position} {left right x : Expr} (h : Reads scope right x) :
      Reads scope (.binary pos left .bitOr right) x
  | argument {pos : Position} {value index arg x : Expr} {dotted name : String}
      (named : value.dotted? = some dotted)
      (left : builtinName scope dotted = some name)
      (isRead : arg ∈ selected name (arguments index) (arguments index))
      (h : Reads scope arg x) : Reads scope (.subscript pos value index) x

/-- The question that a part poses itself. -/
inductive Poses (scope : Scope) : Expr → Ask → Prop where
  | text {pos : Position} {text : String} {marked : Bool}
      (other : text ≠ "None") :
      Poses scope (.constant pos (.text text marked)) (.text text)
  | name {e : Expr} {dotted : String} (asName : readsAsName e = true)
      (named : e.dotted? = some dotted)
      (own : builtinName scope dotted = none) : Poses scope e (.name dotted)
  | head {pos : Position} {value index : Expr} {dotted : String}
      (named : value.dotted? = some dotted)
      (own : builtinName scope dotted = none) :
      Poses scope (.subscript pos value index) (.name dotted)

/-- A part that stops the reading itself, whatever the names of the
program stand for, with the message of the fault, or with what comes in
the way of a message. -/
inductive Wrong (scope : Scope) : Expr → Except Breakdown String → Prop where
  | unsupported {e : Expr} (asName : readsAsName e = true)
      (noName : e.dotted? = none) :
      Wrong scope e (e.text.map unsupportedMessage)
  | undefined {e : Expr} {dotted name : String} (asName : readsAsName e = true)
      (named : e.dotted? = some dotted)
      (left : builtinName scope dotted = some name)
      (unknown : Undefined scope name dotted) :
      Wrong scope e (.ok (undefinedMessage dotted))
  | unsupportedHead {pos : Position} {value index : Expr}
      (noName : value.dotted? = none) : Wrong scope (.subscript pos value index)
        ((Expr.subscript pos value index).text.map unsupportedMessage)
  | undefinedHead {pos : Position} {value index : Expr} {dotted name : String}
      (named : value.dotted? = some dotted)
      (left : builtinName scope dotted = some name)
      (noGeneric : takesArguments name = false)
      (unknown : Undefined scope name dotted) :
      Wrong scope (.subscript pos value index) (.ok (undefinedMessage dotted))
  | unreadable {e : Expr} {text : String} {row : Nat}
      (posed : Poses scope e (.text text))
      (unread : readExpression (Text.trim text) = .error row) :
      Wrong scope e (.ok (unreadableMessage text))
  | torn {pos : Position} {value : TornText} {marked : Bool} :
      Wrong scope (.constant pos (.torn value marked)) (.error .surrogate)

theorem Site.stop_ne_exhausted (site : Site) (row : Nat)
    (verdict : Except Breakdown String) :
    site.stop row verdict ≠ .exhausted := by
  cases verdict <;> exact nofun

/-- What is read as a part of an annotation: itself, or what it quotes,
at any depth. -/
inductive Encloses (scope : Scope) : Expr → Expr → Prop where
  | here {e : Expr} : Encloses scope e e
  | quoted {e x inner whole : Expr} {text : String} (isRead : Reads scope e x)
      (posed : Poses scope x (.text text))
      (parsed : readExpression (Text.trim text) = .ok inner)
      (rest : Encloses scope inner whole) : Encloses scope e whole

/-- A wrong part of an annotation, or of what it quotes. -/
def WrongWithin (scope : Scope) (e x : Expr)
    (verdict : Except Breakdown String) : Prop :=
  ∃ whole, Encloses scope e whole ∧ Reads scope whole x ∧ Wrong scope x verdict

/-! ## How reading goes on -/

section Forms

variable {names : Names} {site : Site} {e : Expr}

theorem readExprs_eq (names : Names) (es : List Expr) :
    readExprs names site es = es.map (readExpr names site) := by
  induction es with
  | nil => rw [readExprs, List.map_nil]
  | cons e es ih => rw [readExprs, ih, List.map_cons]

theorem readExpr_asName (h : readsAsName e = true) :
    readExpr names site e = .type <$> plain names site e := by
  have hne : ∀ e', e = e' → readsAsName e' = false → False := by
    rintro e' rfl he
    rw [h] at he
    cases he
  rw [readExpr]
  all_goals
    intros
    exact hne _ ‹_› rfl

theorem readExpr_subscript (pos : Position) (value index : Expr) :
    readExpr names site (.subscript pos value index) =
      .type <$> applied names site (.subscript pos value index) value
        (arguments index) ((arguments index).map (readExpr names site)) := by
  unfold arguments
  split
  · rw [readExpr, readExprs_eq]
  · next hindex =>
      rw [readExpr]
      · rfl
      · exact hindex

end Forms

theorem mem_selected {α : Type} {name : String} {args : List Expr}
    {xs : List α} {x : α} (h : x ∈ selected name args xs) : x ∈ xs := by
  unfold selected at h
  split at h
  · exact List.mem_of_mem_take h
  split at h
  · exact h
  split at h
  · exact List.mem_of_mem_take h
  split at h
  · exact absurd h List.not_mem_nil
  split at h
  · exact List.mem_of_mem_take h
  split at h
  · split at h
    · exact List.mem_of_mem_take h
    · exact h
  split at h
  · exact List.mem_of_mem_take h
  · exact absurd h List.not_mem_nil

theorem selected_map {α β : Type} (name : String) (args : List Expr) (f : α → β)
    (xs : List α) :
    selected name args (xs.map f) = (selected name args xs).map f := by
  unfold selected
  simp only [List.map_take, apply_ite (List.map f), List.map_nil]

theorem asksAll_eq (scope : Scope) (es : List Expr) :
    asksAll scope es = es.map (asks scope) := by
  induction es with
  | nil => rw [asksAll, List.map_nil]
  | cons e es ih => rw [asksAll, ih, List.map_cons]

theorem asks_subscript (scope : Scope) (pos : Position) (value index : Expr) :
    asks scope (.subscript pos value index) =
      appliedAsks scope value (arguments index)
        ((arguments index).map (asks scope)) := by
  unfold arguments
  split
  · rw [asks, asksAll_eq]
  · next hindex =>
      rw [asks]
      · rfl
      · exact hindex

theorem asks_asName {scope : Scope} {e : Expr} (h : readsAsName e = true) :
    asks scope e = plainAsks scope e := by
  have hne : ∀ e', e = e' → readsAsName e' = false → False := by
    rintro e' rfl he
    rw [h] at he
    cases he
  rw [asks]
  all_goals
    intros
    exact hne _ ‹_› rfl

/-- The whole asks what its parts pose. -/
theorem Reads.mem_asks {scope : Scope} {e x : Expr} {a : Ask}
    (h : Reads scope e x) (ha : Poses scope x a) : a ∈ asks scope e := by
  induction h with
  | whole =>
      cases ha with
      | text other =>
          rw [asks, if_neg other]
          exact List.mem_singleton_self _
      | name asName named own =>
          rw [asks_asName asName, plainAsks, named]
          dsimp only
          rw [own]
          exact List.mem_singleton_self _
      | head named own =>
          rw [asks_subscript, appliedAsks, named]
          dsimp only
          rw [own]
          exact List.mem_singleton_self _
  | left _ ih =>
      rw [asks]
      exact List.mem_append_left _ (ih ha)
  | right _ ih =>
      rw [asks]
      exact List.mem_append_right _ (ih ha)
  | @argument _ _ _ arg _ _ _ named left isRead _ ih =>
      rw [asks_subscript, appliedAsks, named]
      dsimp only
      rw [left]
      dsimp only
      rw [selected_map, List.mem_flatten]
      exact ⟨asks scope arg, List.mem_map.mpr ⟨arg, isRead, rfl⟩, ih ha⟩

/-! ## Relations between steps -/

/-- A relation between steps that survives putting steps together. -/
structure Composes (J : ⦃α : Type⦄ → Resolve α → Resolve α → Prop) : Prop where
  pure : ∀ {α : Type} (a : α), J (Pure.pure a) (Pure.pure a)
  bind : ∀ {α β : Type} {x y : Resolve α} {f g : α → Resolve β}, J x y →
    (∀ a, J (f a) (g a)) → J (x >>= f) (y >>= g)

section Walk

variable {J : ⦃α : Type⦄ → Resolve α → Resolve α → Prop} (hJ : Composes J)

include hJ

theorem Composes.map {α β : Type} {x y : Resolve α} {f : α → β} (h : J x y) :
    J (f <$> x) (f <$> y) := by
  rw [map_eq_pure_bind, map_eq_pure_bind]
  exact hJ.bind h fun a => hJ.pure (f a)

theorem Composes.mapM {α γ : Type} {xs : List γ} {f g : γ → Resolve α}
    (h : ∀ x ∈ xs, J (f x) (g x)) : J (xs.mapM f) (xs.mapM g) := by
  induction xs with
  | nil => exact hJ.pure []
  | cons x xs ih =>
      rw [List.mapM_cons, List.mapM_cons]
      refine hJ.bind (h x List.mem_cons_self) fun a => ?_
      exact hJ.bind (ih fun y hy => h y (List.mem_cons_of_mem x hy)) fun as =>
        hJ.pure (a :: as)

variable {site site' : Site} (hscope : site'.scope = site.scope)
  {name dotted : String} {args : List Expr}
  {read read' : Expr → Resolve Reading}

/-- Stopping at a part with the same words, at either site. -/
def StopsAlike (J : ⦃α : Type⦄ → Resolve α → Resolve α → Prop)
    (site site' : Site) (row : Nat) (verdict : Except Breakdown String) :
    Prop :=
  ∀ ⦃α : Type⦄, J (throw (site.stop row verdict) : Resolve α)
    (throw (site'.stop row verdict))

include hscope in
theorem builtin_matches {row : Nat}
    (h : Undefined site.scope name dotted →
      StopsAlike J site site' row (.ok (undefinedMessage dotted))) :
    J (builtin site row name dotted) (builtin site' row name dotted) := by
  unfold builtin
  split
  · exact hJ.pure _
  · next hnone =>
      rw [hscope]
      split
      · exact hJ.pure _
      · next hguard =>
          simp only [Bool.or_eq_true, decide_eq_true_iff, not_or,
            not_not] at hguard
          exact @h ⟨hnone, hguard.1, Bool.eq_false_iff.mpr hguard.2⟩ _

theorem argumentType_matches {i : Nat}
    (h : ∀ arg ∈ args[i]?, J (read arg) (read' arg)) :
    J (argumentType (args.map read) i) (argumentType (args.map read') i) := by
  unfold argumentType
  rw [List.getElem?_map, List.getElem?_map]
  cases hi : args[i]? with
  | none => exact hJ.pure _
  | some arg => exact hJ.map (h arg hi)

/-- A name of the language looks at those of its arguments that it reads. -/
theorem generic_matches {row : Nat}
    (hargs : ∀ arg ∈ selected name args args, J (read arg) (read' arg))
    (hdefault : takesArguments name = false →
      J (builtin site row name dotted) (builtin site' row name dotted)) :
    J (generic site row name dotted args (args.map read))
      (generic site' row name dotted args (args.map read')) := by
  have hfirst :
      ∀ {n : Nat}, (∀ arg ∈ args.take (n + 1), J (read arg) (read' arg)) →
      ∀ arg ∈ args[0]?, J (read arg) (read' arg) := by
    intro n h arg harg
    cases args with
    | nil => cases harg
    | cons a rest =>
        cases harg
        exact h _ List.mem_cons_self
  have hall : (∀ arg ∈ args, J (read arg) (read' arg)) →
      J ((args.map read).mapM id) ((args.map read').mapM id) := by
    intro h
    simp only [List.mapM_map]
    exact hJ.mapM h
  -- what is selected is told by the kind of the name, test by test like the
  -- reading, so each test is decided in both at once
  unfold generic
  unfold selected at hargs
  by_cases hOptional : name = "Optional"
  · simp only [if_pos hOptional] at hargs ⊢
    exact hJ.bind (argumentType_matches hJ (hfirst hargs)) fun t => hJ.pure _
  simp only [if_neg hOptional] at hargs ⊢
  by_cases hUnion : name = "Union"
  · simp only [if_pos hUnion] at hargs ⊢
    exact hJ.bind (hall hargs) fun rs => hJ.pure _
  simp only [if_neg hUnion] at hargs ⊢
  by_cases hWrapper : wrapperNames.contains name = true
  · simp only [if_pos hWrapper] at hargs ⊢
    exact argumentType_matches hJ (hfirst hargs)
  simp only [if_neg hWrapper] at hargs ⊢
  by_cases hLiteral : name = "Literal"
  · simp only [if_pos hLiteral] at hargs ⊢
    exact hJ.pure _
  simp only [if_neg hLiteral] at hargs ⊢
  by_cases hSequence : sequenceNames.contains name = true
  · simp only [if_pos hSequence] at hargs ⊢
    exact hJ.bind (argumentType_matches hJ (hfirst hargs)) fun t => hJ.pure _
  simp only [if_neg hSequence] at hargs ⊢
  by_cases hTuple : tupleNames.contains name = true
  · simp only [if_pos hTuple] at hargs ⊢
    by_cases hopen : isOpenTuple args = true
    · simp only [if_pos hopen] at hargs ⊢
      exact hJ.bind (argumentType_matches hJ (hfirst hargs)) fun t => hJ.pure _
    simp only [if_neg hopen] at hargs ⊢
    rw [readTypes_eq, readTypes_eq]
    exact hJ.bind (hJ.map (hall hargs)) fun ts => hJ.pure _
  simp only [if_neg hTuple] at hargs ⊢
  by_cases hMapping : mappingNames.contains name = true
  · simp only [if_pos hMapping] at hargs ⊢
    refine hJ.bind (argumentType_matches hJ (hfirst hargs)) fun key => ?_
    refine hJ.bind (argumentType_matches hJ fun arg harg => ?_) fun elem =>
      hJ.pure _
    refine hargs arg ?_
    obtain ⟨hlt, rfl⟩ := List.getElem?_eq_some_iff.mp harg
    exact List.mem_take_iff_getElem.mpr ⟨1, by omega, rfl⟩
  simp only [if_neg hMapping] at hargs ⊢
  refine hdefault ?_
  simp [takesArguments, hOptional, hUnion, hLiteral]
    at hWrapper hSequence hTuple hMapping ⊢
  exact ⟨⟨⟨hWrapper, hSequence⟩, hTuple⟩, hMapping⟩

/-! ## The walk -/

/-- Two ways of reading that do the same at each part of an annotation. -/
structure MatchesAt (J : ⦃α : Type⦄ → Resolve α → Resolve α → Prop)
    (names names' : Names) (site site' : Site) (e : Expr) : Prop where
  stop : ∀ x verdict, Reads site.scope e x → Wrong site.scope x verdict →
    StopsAlike J site site' x.row verdict
  ask : ∀ x a, Reads site.scope e x → Poses site.scope x a →
    J (names.answer (x.row, a)) (names'.answer (x.row, a))

omit hJ in
theorem MatchesAt.part {names names' : Names} {e arg : Expr}
    (h : MatchesAt J names names' site site' e)
    (hpart : ∀ x, Reads site.scope arg x → Reads site.scope e x) :
    MatchesAt J names names' site site' arg :=
  ⟨fun x verdict hx => h.stop x verdict (hpart x hx),
    fun x a hx => h.ask x a (hpart x hx)⟩

include hscope

theorem applied_matches {names names' : Names} {pos : Position}
    {value index : Expr}
    (h : MatchesAt J names names' site site' (.subscript pos value index))
    (hargs : ∀ arg ∈ arguments index, MatchesAt J names names' site site' arg →
      J (readExpr names site arg) (readExpr names' site' arg)) :
    J (applied names site (.subscript pos value index) value (arguments index)
        ((arguments index).map (readExpr names site)))
      (applied names' site' (.subscript pos value index) value (arguments index)
        ((arguments index).map (readExpr names' site'))) := by
  unfold applied
  cases hd : value.dotted? with
  | none => exact @h.stop _ _ .whole (.unsupportedHead hd) _
  | some dotted =>
      dsimp only
      rw [hscope]
      cases hb : builtinName site.scope dotted with
      | none => exact h.ask _ _ .whole (.head hd hb)
      | some name =>
          refine generic_matches hJ (fun arg harg => ?_) fun hgeneric =>
            builtin_matches hJ hscope fun hunknown =>
              h.stop _ _ .whole (.undefinedHead hd hb hgeneric hunknown)
          exact hargs arg (mem_selected harg)
            (h.part fun x hx => .argument hd hb harg hx)

/-- The walk over an annotation: one case for each way of reading it. -/
theorem readExpr_matches {names names' : Names} :
    (∀ e, MatchesAt J names names' site site' e →
      J (readExpr names site e) (readExpr names' site' e)) ∧
    ∀ es : List Expr, ∀ e ∈ es, MatchesAt J names names' site site' e →
      J (readExpr names site e) (readExpr names' site' e) := by
  -- both readings take the same case, since they read one expression, and what
  -- they ask for there belongs to a part of which the hypothesis speaks
  apply readExpr.mutual_induct
  case case1 =>
      intro pos _
      rw [readExpr, readExpr]
      exact hJ.pure _
  case case2 =>
      intro pos marked _
      rw [readExpr, if_pos rfl, readExpr, if_pos rfl]
      exact hJ.pure _
  case case3 =>
      intro pos text marked htext h
      rw [readExpr, if_neg htext, readExpr, if_neg htext]
      exact hJ.map (h.ask _ _ .whole (.text htext))
  case case4 =>
      intro pos value marked h
      rw [readExpr, readExpr]
      exact @h.stop _ _ .whole .torn _
  case case5 =>
      intro pos value hnone htext htorn _
      have hread : ∀ (names : Names) (site : Site),
          readExpr names site (.constant pos value) =
          Pure.pure (.type .any) := by
        intro names site
        rw [readExpr]
        · exact hnone
        · exact htext
        · exact htorn
      rw [hread, hread]
      exact hJ.pure _
  case case6 =>
      intro pos left right hleft hright h
      rw [readExpr, readExpr]
      refine hJ.bind (hleft (h.part fun x hx => .left hx)) fun a => ?_
      exact hJ.bind (hright (h.part fun x hx => .right hx)) fun b => hJ.pure _
  case case7 =>
      intro pos value at_ elts helts h
      rw [readExpr_subscript, readExpr_subscript]
      exact hJ.map (applied_matches hJ hscope h helts)
  case case8 =>
      intro pos value index hindex hread h
      rw [readExpr_subscript, readExpr_subscript]
      refine hJ.map (applied_matches hJ hscope h fun arg harg => ?_)
      rw [arguments_single hindex] at harg
      rw [List.mem_singleton.mp harg]
      exact hread
  case case9 =>
      intro e hnone htext htorn hconstant hbinary htuple hsubscript h
      have hname : readsAsName e = true := by
        unfold readsAsName
        split
        · next value => exact absurd rfl (hconstant _ value)
        · exact absurd rfl (hsubscript _ _ _)
        · exact absurd rfl (hbinary _ _ _)
        · rfl
      rw [readExpr_asName hname, readExpr_asName hname]
      refine hJ.map ?_
      unfold plain
      cases hd : e.dotted? with
      | none => exact @h.stop _ _ .whole (.unsupported hname hd) _
      | some dotted =>
          dsimp only
          rw [hscope]
          cases hb : builtinName site.scope dotted with
          | none => exact h.ask _ _ .whole (.name hname hd hb)
          | some name =>
              exact builtin_matches hJ hscope fun hunknown =>
                h.stop _ _ .whole (.undefined hname hd hb hunknown)
  case case10 => exact fun e he => absurd he List.not_mem_nil
  case case11 =>
      intro e es he hes e' he'
      rcases List.mem_cons.mp he' with rfl | he'
      · exact he
      · exact hes e' he'

/-! ## Quoted texts -/

/-- Two ways of naming that do the same at each part of all that an
annotation holds. -/
structure MatchesWithin (J : ⦃α : Type⦄ → Resolve α → Resolve α → Prop)
    (named named' : Nat → String → Resolve TypeRef) (site site' : Site)
    (e : Expr) : Prop where
  stop : ∀ whole x verdict, Encloses site.scope e whole →
    Reads site.scope whole x → Wrong site.scope x verdict →
    StopsAlike J site site' x.row verdict
  name : ∀ whole x dotted, Encloses site.scope e whole →
    Reads site.scope whole x → Poses site.scope x (.name dotted) →
    J (named x.row dotted) (named' x.row dotted)

theorem expr_matches {named named' : Nat → String → Resolve TypeRef}
    {forward forward' : Nat → String → Resolve TypeRef} {e : Expr}
    (h : MatchesWithin J named named' site site' e)
    (hforward : ∀ x text, Reads site.scope e x →
      Poses site.scope x (.text text) → J (forward x.row text)
      (forward' x.row text)) :
    J (readExpr ⟨named, forward⟩ site e)
      (readExpr ⟨named', forward'⟩ site' e) := by
  refine (readExpr_matches hJ hscope).1 e
    ⟨fun x verdict hx hw => h.stop e x verdict .here hx hw, fun x a hx ha => ?_⟩
  cases a with
  | name dotted => exact h.name e x dotted .here hx ha
  | text text => exact hforward x text hx ha

variable (hend : J (throw .exhausted : Resolve TypeRef) (throw .exhausted))

include hend

theorem readText_matches {named named' : Nat → String → Resolve TypeRef}
    (levels : Nat) {row : Nat} {text : String}
    (hunread : ∀ r, readExpression (Text.trim text) = .error r →
      StopsAlike J site site' row (.ok (unreadableMessage text)))
    (h : ∀ e, readExpression (Text.trim text) = .ok e →
      MatchesWithin J named named' site site' e) :
    J (readText named site levels row text)
      (readText named' site' levels row text) := by
  induction levels generalizing row text with
  | zero => exact hend
  | succ levels ih =>
      rw [readText.eq_def, readText.eq_def]
      dsimp only
      cases he : readExpression (Text.trim text) with
      | error r => exact @hunread r he _
      | ok e =>
          have hinside := h e he
          refine hJ.map (expr_matches hJ hscope hinside fun x quote hx hposed =>
            ih (fun r hr => ?_) fun inner hinner =>
              ⟨fun whole y verdict hw => ?_, fun whole y dotted hw => ?_⟩)
          · exact hinside.stop e x _ .here hx (.unreadable hposed hr)
          · exact hinside.stop whole y verdict (.quoted hx hposed hinner hw)
          · exact hinside.name whole y dotted (.quoted hx hposed hinner hw)

theorem annotation_matches
    {named named' : Nat → String → Resolve TypeRef} {e : Expr}
    (h : MatchesWithin J named named' site site' e) :
    J (annotationType named site e) (annotationType named' site' e) := by
  unfold annotationType
  refine hJ.map (expr_matches hJ hscope h fun x text hx hposed =>
    readText_matches hJ hscope hend _ (fun r hr => ?_)
      fun inner hinner =>
        ⟨fun whole y verdict hw => ?_, fun whole y dotted hw => ?_⟩)
  · exact h.stop e x _ .here hx (.unreadable hposed hr)
  · exact h.stop whole y verdict (.quoted hx hposed hinner hw)
  · exact h.name whole y dotted (.quoted hx hposed hinner hw)

end Walk

end BridgeBindings
