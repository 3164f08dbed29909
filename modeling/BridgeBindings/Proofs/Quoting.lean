import BridgeBindings.Proofs.Literals
import BridgeBindings.Syntax.Read

/-!
# Quoted texts are shorter

What an expression quotes is shorter than the text that the expression was read
from. The grammar is walked rule by rule with one budget, the slack of the
tokens at the start: a rule leaves tokens of no more slack behind, and what it
read quotes no text longer than that. Only `strings` gives text, and it pays
with the tokens that it takes.

The rules take tokens away and add none, so a budget may ask more of the tokens
than their slack, as long as it asks no more of what is left of them.
-/

namespace BridgeBindings.Syntax

namespace Parser

/-! ## Readers within a budget -/

theorem bind_ok {α β : Type} {p : Parser α} {f : α → Parser β}
    {s s' : State} {b : β} (h : (p >>= f) s = .ok b s') :
    ∃ a after, p s = .ok a after ∧ f a after = .ok b s' := by
  change andThen p f s = .ok b s' at h
  unfold andThen at h
  split at h
  · next a after ha => exact ⟨a, after, ha, h⟩
  · cases h
  · cases h

/-- What tokens have to be like, so that their slack is no more than this. -/
structure Budget (n : Nat) where
  holds : List Token → Prop
  tail : ∀ ts, holds ts → holds ts.tail
  slack : ∀ ts, holds ts → slack ts ≤ n

/-- From tokens within the budget, what is left is within it and `P` is true of
the answer. -/
def Yields {α : Type} {n : Nat} (b : Budget n) (p : Parser α) (P : α → Prop) :
    Prop :=
  ∀ s a s', b.holds s.tokens → p s = .ok a s' → b.holds s'.tokens ∧ P a

/-- Nothing is said of the answer. -/
abbrev Any {α : Type} : α → Prop := fun _ => True

/-- What is said of an answer that may be missing. -/
def Maybe {α : Type} (P : α → Prop) (o : Option α) : Prop :=
  ∀ a, o = some a → P a

namespace Yields

variable {α β : Type} {n : Nat} {b : Budget n} {p : Parser α} {P P' : α → Prop}

theorem pure {a : α} (h : P a) : Yields b (Pure.pure a) P := by
  intro s a' s' hs hr
  cases hr
  exact ⟨hs, h⟩

theorem bind {f : α → Parser β} {Q : β → Prop} (hp : Yields b p P)
    (hf : ∀ a, P a → Yields b (f a) Q) : Yields b (p >>= f) Q := by
  intro s b s' hs hr
  obtain ⟨a, after, ha, hb⟩ := bind_ok hr
  obtain ⟨hafter, hP⟩ := hp _ _ _ hs ha
  exact hf a hP _ _ _ hafter hb

theorem mono (hp : Yields b p P) (h : ∀ a, P a → P' a) : Yields b p P' :=
  fun s a s' hs hr => ⟨(hp s a s' hs hr).1, h a (hp s a s' hs hr).2⟩

theorem any (hp : Yields b p P) : Yields b p Any := hp.mono fun _ _ => trivial

theorem map {f : α → β} {Q : β → Prop} (hp : Yields b p P)
    (h : ∀ a, P a → Q (f a)) : Yields b (do return f (← p)) Q :=
  hp.bind fun a ha => Yields.pure (h a ha)

theorem ite {c : Prop} [Decidable c] {q : Parser α} (hp : Yields b p P)
    (hq : Yields b q P) : Yields b (if c then p else q) P := by
  split
  · exact hp
  · exact hq

end Yields

section

variable {α : Type} {n : Nat} {b : Budget n} {p : Parser α} {P : α → Prop}

theorem refuse_yields : Yields b (refuse : Parser α) P :=
  fun _ _ _ _ hr => by cases hr

theorem faultAt_yields (row : Nat) : Yields b (faultAt row : Parser α) P :=
  fun _ _ _ _ hr => by cases hr

theorem succeeds_yields : Yields b (succeeds p) Any := by
  intro s a s' hs hr
  unfold succeeds at hr
  split at hr
  · cases hr
    exact ⟨hs, trivial⟩
  · cases hr
    exact ⟨hs, trivial⟩
  · cases hr

theorem explaining_yields : Yields b explaining Any := by
  intro s a s' hs hr
  cases hr
  exact ⟨hs, trivial⟩

/-! ## Single tokens -/

theorem peek_ok {t : Token} {s s' : State} (h : peek s = .ok t s') :
    s'.tokens = s.tokens ∧ ∃ rest, s.tokens = t :: rest := by
  unfold peek at h
  split at h
  · cases h
  · next t rest ht =>
      split at h
      · cases h
      · cases h
        exact ⟨rfl, rest, ht⟩

theorem advance_ok {u : Unit} {s s' : State} (h : advance s = .ok u s') :
    s'.tokens = s.tokens.tail := by
  unfold advance at h
  split at h
  · cases h
  · next t rest ht =>
      cases h
      rw [ht]
      rfl

theorem slack_tail (ts : List Token) : slack ts.tail ≤ slack ts := by
  cases ts with
  | nil => exact Nat.le_refl _
  | cons t ts =>
      rw [List.tail_cons, slack_cons]
      exact Nat.le_add_left _ _

theorem peek_holds : Yields b peek fun t => ∃ rest, b.holds (t :: rest) := by
  intro s t s' hs hr
  obtain ⟨hsame, rest, hrest⟩ := peek_ok hr
  rw [hsame]
  exact ⟨hs, rest, hrest ▸ hs⟩

theorem peek_slack : Yields b peek fun t => t.kind.chars - 1 ≤ n := by
  refine peek_holds.mono fun t ht => ?_
  obtain ⟨rest, hrest⟩ := ht
  have hslack := b.slack _ hrest
  rw [slack_cons] at hslack
  omega

theorem peek_yields : Yields b peek Any := peek_holds.any

theorem advance_yields : Yields b advance Any := by
  intro s u s' hs hr
  rw [advance_ok hr]
  exact ⟨b.tail _ hs, trivial⟩

theorem position_yields : Yields b position Any :=
  peek_yields.map fun _ _ => trivial

theorem remaining_yields : Yields b remaining Any := by
  intro s a s' hs hr
  cases hr
  exact ⟨hs, trivial⟩

theorem isSymbol_yields (text : String) : Yields b (isSymbol text) Any :=
  peek_yields.map fun _ _ => trivial

theorem isWord_yields (word : String) : Yields b (isWord word) Any :=
  peek_yields.map fun _ _ => trivial

theorem takeSymbol_yields (text : String) : Yields b (takeSymbol text) Any :=
  (isSymbol_yields text).bind fun _ _ =>
    .ite (advance_yields.map fun _ _ => trivial) (.pure trivial)

theorem takeWord_yields (word : String) : Yields b (takeWord word) Any :=
  (isWord_yields word).bind fun _ _ =>
    .ite (advance_yields.map fun _ _ => trivial) (.pure trivial)

theorem symbol_yields (text : String) : Yields b (symbol text) Any :=
  (takeSymbol_yields text).bind fun _ _ => .ite (.pure trivial) refuse_yields

theorem word_yields (text : String) : Yields b (word text) Any :=
  (takeWord_yields text).bind fun _ _ => .ite (.pure trivial) refuse_yields

theorem kind_yields (k : TokenKind) : Yields b (kind k) Any :=
  peek_yields.bind fun _ _ => .ite advance_yields refuse_yields

theorem peekIdentifier_yields : Yields b peekIdentifier Any := by
  refine peek_yields.bind fun t _ => ?_
  split
  · exact .pure trivial
  · exact .pure trivial

theorem identifier_yields : Yields b identifier Any := by
  refine peekIdentifier_yields.bind fun o _ => ?_
  split
  · exact advance_yields.map fun _ _ => trivial
  · exact refuse_yields

theorem identifierBefore_yields (text : String) :
    Yields b (identifierBefore text) Any := by
  have hboth : Yields b (do
      let id ← identifier
      symbol text
      return id) Any :=
    identifier_yields.bind fun _ _ =>
      (symbol_yields text).bind fun _ _ => .pure trivial
  intro s a s' hs hr
  unfold identifierBefore at hr
  split at hr
  · next id after h =>
      cases hr
      exact ⟨(hboth _ _ _ hs h).1, trivial⟩
  · cases hr
    exact ⟨hs, trivial⟩
  · cases hr

/-! ## Repetition -/

theorem iterate_yields {step : α → Parser (Option α)} (fuel : Nat)
    {a : α} (ha : P a) (hstep : ∀ a, P a → Yields b (step a) (Maybe P)) :
    Yields b (iterate step fuel a) P := by
  induction fuel generalizing a with
  | zero => exact .pure ha
  | succ fuel ih =>
      refine (hstep a ha).bind fun o ho => ?_
      split
      · next next => exact ih (ho next rfl)
      · exact .pure ha

theorem repeatFrom_yields {step : α → Parser (Option α)} {a : α} (ha : P a)
    (hstep : ∀ a, P a → Yields b (step a) (Maybe P)) :
    Yields b (repeatFrom a step) P :=
  remaining_yields.bind fun fuel _ => iterate_yields fuel ha hstep

theorem maybe_some {a : α} (h : P a) : Maybe P (some a) := fun b hb => by
  cases hb
  exact h

theorem maybe_none : Maybe P (none : Option α) := fun _ h => by cases h

theorem none_yields : Yields b (Pure.pure none : Parser (Option α)) (Maybe P) :=
  .pure maybe_none

end

end Parser

/-! ## Expressions -/

/-- Every text that an expression quotes is no longer than this. -/
def Quotes (n : Nat) (e : Expr) : Prop := ∀ text ∈ e.quoted, text.length ≤ n

namespace Quotes

variable {n : Nat}

theorem of_nil {e : Expr} (h : e.quoted = []) : Quotes n e := by
  intro text ht
  rw [h] at ht
  exact absurd ht List.not_mem_nil

theorem mem_quotedAll {es : List Expr} {text : String}
    (h : text ∈ quotedAll es) : ∃ e ∈ es, text ∈ e.quoted := by
  induction es with
  | nil => exact absurd h List.not_mem_nil
  | cons e es ih =>
      rw [quotedAll, List.mem_append] at h
      rcases h with h | h
      · exact ⟨e, List.mem_cons_self, h⟩
      · obtain ⟨e', he', h⟩ := ih h
        exact ⟨e', List.mem_cons_of_mem e he', h⟩

theorem tuple {pos : Position} {es : List Expr} (h : ∀ e ∈ es, Quotes n e) :
    Quotes n (.tuple pos es) := by
  intro text ht
  obtain ⟨e, he, ht⟩ := mem_quotedAll (by simpa only [Expr.quoted] using ht)
  exact h e he text ht

theorem subscript {pos : Position} {value index : Expr} (h : Quotes n index) :
    Quotes n (.subscript pos value index) := by
  intro text ht
  exact h text (by simpa only [Expr.quoted] using ht)

theorem binary {pos : Position} {left right : Expr} {op : BinaryOp}
    (hl : Quotes n left) (hr : Quotes n right) :
    Quotes n (.binary pos left op right) := by
  intro text ht
  by_cases hop : op = .bitOr
  · subst hop
    rw [Expr.quoted, List.mem_append] at ht
    rcases ht with ht | ht
    · exact hl text ht
    · exact hr text ht
  · have hnil : (Expr.binary pos left op right).quoted = [] := by
      rw [Expr.quoted.eq_def]
      cases op <;> first | rfl | exact absurd rfl hop
    rw [hnil] at ht
    exact absurd ht List.not_mem_nil

end Quotes

namespace Grammar

open BridgeBindings.Syntax.Parser

section Rules

variable {n : Nat} {b : Budget n} {item value operand : Parser Expr}

theorem rest_yields {first : Expr} (hfirst : Quotes n first)
    (hitem : Yields b item (Quotes n)) :
    Yields b (rest first item) fun found => ∀ e ∈ found.1, Quotes n e := by
  refine (repeatFrom_yields (P := fun found => ∀ e ∈ found.1, Quotes n e)
    (fun _ h => by cases h) ?_).map ?_
  · rintro ⟨more, closed, comma⟩ hmore
    refine .ite none_yields
      ((takeSymbol_yields _).bind fun _ _ => .ite none_yields ?_)
    refine peek_yields.bind fun _ _ => .ite ?_ (.pure (maybe_some hmore))
    refine hitem.map fun e he => maybe_some fun e' he' => ?_
    rcases List.mem_cons.mp he' with rfl | he'
    · exact he
    · exact hmore e' he'
  · rintro ⟨more, closed, comma⟩ hmore e he
    rcases List.mem_cons.mp he with rfl | he
    · exact hfirst
    · exact hmore e (List.mem_reverse.mp he)

theorem tupleOf_yields (hitem : Yields b item (Quotes n)) :
    Yields b (tupleOf item) (Quotes n) := by
  refine position_yields.bind fun _ _ => hitem.bind fun first hfirst => ?_
  refine (rest_yields hfirst hitem).bind fun found hfound => ?_
  split
  · exact .pure (Quotes.tuple hfound)
  · exact .pure hfirst

theorem starred_yields (hvalue : Yields b value (Quotes n)) :
    Yields b (starred value) (Quotes n) :=
  position_yields.bind fun _ _ => (symbol_yields _).bind fun _ _ =>
    hvalue.map fun _ _ => Quotes.of_nil rfl

theorem orStarred_yields (hvalue : Yields b value (Quotes n))
    (hitem : Yields b item (Quotes n)) :
    Yields b (orStarred value item) (Quotes n) :=
  (isSymbol_yields _).bind fun _ _ => .ite (starred_yields hvalue) hitem

theorem startsClause_yields : Yields b startsClause Any :=
  (isWord_yields _).bind fun _ _ => (isWord_yields _).map fun _ _ => trivial

end Rules

/-! ## Strings -/

/-- One step of `strings`. -/
def takeString (parts : List Literal.Part) :
    Parser (Option (List Literal.Part)) := do
  let t ← peek
  match t.kind with
  | .string raw =>
    advance
    return some (⟨t.pos, raw⟩ :: parts)
  | _ => return none

theorem takeString_room {parts : List Literal.Part}
    {o : Option (List Literal.Part)} {s s' : State}
    (h : takeString parts s = .ok o s') :
    Literal.room (o.getD parts) + slack s'.tokens ≤ Literal.room parts +
    slack s.tokens := by
  obtain ⟨t, after, ht, h⟩ := bind_ok h
  obtain ⟨hsame, rest, hrest⟩ := peek_ok ht
  cases hkind : t.kind <;> rw [hkind] at h
  case string raw =>
      obtain ⟨u, last, hu, h⟩ := bind_ok h
      cases h
      rw [advance_ok hu, hsame, hrest, List.tail_cons, slack_cons, hkind,
        Option.getD_some, Literal.room_cons, TokenKind.chars]
      dsimp only
      omega
  all_goals
    cases h
    rw [hsame]
    exact Nat.le_refl _

theorem iterateStrings_room {fuel : Nat} {parts taken : List Literal.Part}
    {s s' : State} (h : iterate takeString fuel parts s = .ok taken s') :
    Literal.room taken + slack s'.tokens ≤ Literal.room parts +
    slack s.tokens := by
  induction fuel generalizing parts s with
  | zero =>
      cases h
      exact Nat.le_refl _
  | succ fuel ih =>
      obtain ⟨o, after, ho, h⟩ := bind_ok h
      have hstep := takeString_room ho
      split at h
      · exact (ih h).trans hstep
      · cases h
        exact hstep

/-- The literals that are taken have room in the slack of their tokens. -/
theorem repeatStrings_room {taken : List Literal.Part} {s s' : State}
    (h : repeatFrom [] takeString s = .ok taken s') :
    Literal.room taken + slack s'.tokens ≤ slack s.tokens := by
  obtain ⟨fuel, after, hfuel, h⟩ := bind_ok h
  cases hfuel
  simpa using iterateStrings_room h

theorem takeString_yields {n : Nat} {b : Budget n} (parts : List Literal.Part) :
    Yields b (takeString parts) (Maybe Any) := by
  refine peek_yields.bind fun t _ => ?_
  split
  · exact advance_yields.map fun _ _ => maybe_some trivial
  · exact none_yields

theorem strings_yields {n : Nat} (b : Budget n) (r : Rules) :
    Yields b (strings r) (Quotes n) := by
  refine position_yields.bind fun pos _ => ?_
  intro s e s' hs h
  have hslack := b.slack _ hs
  obtain ⟨parts, after, hparts, hvalue⟩ := bind_ok h
  have hroom := repeatStrings_room hparts
  have hafter := (repeatFrom_yields (b := b) (P := Any) trivial
    (fun parts _ => takeString_yields parts) _ _ _ hs hparts).1
  cases he : Literal.value (insideString r) pos parts.reverse with
  | ok e' =>
      rw [he] at hvalue
      cases hvalue
      refine ⟨hafter, fun text ht => ?_⟩
      have := Literal.value_quoted he ht
      rw [Literal.room_reverse] at this
      omega
  | error f =>
      rw [he] at hvalue
      cases f <;> cases hvalue

/-! ## Rules

`r` stands for the rules one level down. -/

section Rules

variable {n : Nat} {b : Budget n} {r : Rules}
    (hr : ∀ k, Yields b (r k) (Quotes n))

include hr

theorem clause_yields : Yields b (clause r) Any := by
  refine (takeWord_yields _).bind fun _ _ => (word_yields _).bind fun _ _ => ?_
  refine (hr _).bind fun _ _ => (word_yields _).bind fun _ _ =>
    (hr _).bind fun _ _ => ?_
  refine (repeatFrom_yields (P := Any) trivial fun cs _ => ?_).map fun _ _ =>
    trivial
  refine (takeWord_yields _).bind fun _ _ => .ite ?_ none_yields
  exact (hr _).map fun _ _ => maybe_some trivial

theorem clauses_yields : Yields b (clauses r) Any := by
  refine (clause_yields hr).bind fun _ _ => ?_
  refine (repeatFrom_yields (P := Any) trivial fun cs _ => ?_).map fun _ _ =>
    trivial
  refine startsClause_yields.bind fun _ _ => .ite ?_ none_yields
  exact (clause_yields hr).map fun _ _ => maybe_some trivial

theorem yieldRule_yields : Yields b (yieldRule r) (Quotes n) := by
  refine position_yields.bind fun _ _ => (word_yields _).bind fun _ _ => ?_
  refine (takeWord_yields _).bind fun _ _ => .ite ?_ ?_
  · exact (hr _).map fun _ _ => Quotes.of_nil rfl
  refine peek_yields.bind fun _ _ => .ite ?_ ?_
  · exact (hr _).map fun _ _ => Quotes.of_nil rfl
  · exact .pure (Quotes.of_nil rfl)

theorem item_yields : Yields b (orStarred (r .bitOr) (r .named)) (Quotes n) :=
  orStarred_yields (hr _) (hr _)

theorem parenthesized_yields (pos : Position) :
    Yields b (parenthesized r pos) (Quotes n) := by
  refine (takeSymbol_yields _).bind fun _ _ => .ite ?_ ?_
  · exact .pure (Quotes.of_nil rfl)
  refine (isWord_yields _).bind fun _ _ => .ite ?_ ?_
  · refine (yieldRule_yields hr).bind fun e he => ?_
    exact (symbol_yields _).map fun _ _ => he
  refine (item_yields hr).bind fun first hfirst =>
    startsClause_yields.bind fun _ _ => .ite ?_ ?_
  · refine .ite refuse_yields ?_
    refine (clauses_yields hr).bind fun _ _ => ?_
    exact (symbol_yields _).map fun _ _ => Quotes.of_nil rfl
  · refine (rest_yields hfirst (item_yields hr)).bind fun found hfound => ?_
    refine .ite refuse_yields ((symbol_yields _).map fun _ _ => ?_)
    split
    · exact Quotes.tuple hfound
    · exact hfirst

theorem bracketed_yields (pos : Position) :
    Yields b (bracketed r pos) (Quotes n) := by
  refine (takeSymbol_yields _).bind fun _ _ => .ite ?_ ?_
  · exact .pure (Quotes.of_nil rfl)
  refine (item_yields hr).bind fun first hfirst =>
    startsClause_yields.bind fun _ _ => .ite ?_ ?_
  · refine .ite refuse_yields ?_
    refine (clauses_yields hr).bind fun _ _ => ?_
    exact (symbol_yields _).map fun _ _ => Quotes.of_nil rfl
  · refine (rest_yields hfirst (item_yields hr)).bind fun _ _ => ?_
    exact (symbol_yields _).map fun _ _ => Quotes.of_nil rfl

theorem dictItem_yields : Yields b (dictItem r) Any := by
  refine (takeSymbol_yields _).bind fun _ _ => .ite ?_ ?_
  · exact (hr _).map fun _ _ => trivial
  refine (hr _).bind fun _ _ => (symbol_yields _).bind fun _ _ => ?_
  exact (hr _).map fun _ _ => trivial

theorem dictItems_yields (first : DictItem) :
    Yields b (dictItems r first) Any := by
  refine (repeatFrom_yields (P := Any) trivial fun items _ => ?_).bind
    fun _ _ => ?_
  · refine (takeSymbol_yields _).bind fun _ _ => .ite none_yields ?_
    refine (isSymbol_yields _).bind fun _ _ => .ite none_yields ?_
    exact (dictItem_yields hr).map fun _ _ => maybe_some trivial
  · exact (symbol_yields _).map fun _ _ => trivial

theorem braced_yields (pos : Position) :
    Yields b (braced r pos) (Quotes n) := by
  refine (takeSymbol_yields _).bind fun _ _ => .ite ?_ ?_
  · exact .pure (Quotes.of_nil rfl)
  refine (isSymbol_yields _).bind fun _ _ => .ite ?_ ?_
  · refine (dictItem_yields hr).bind fun _ _ => ?_
    exact (dictItems_yields hr _).map fun _ _ => Quotes.of_nil rfl
  refine (item_yields hr).bind fun first hfirst => ?_
  extract_lets unstarred afterFirst
  have hunstarred : ∀ u, Yields b (unstarred u) (Quotes n) := by
    intro u
    refine (clauses_yields hr).bind fun _ _ => ?_
    exact (symbol_yields _).map fun _ _ => Quotes.of_nil rfl
  have hafter : ∀ keyed, Yields b (afterFirst keyed) (Quotes n) := by
    intro keyed
    refine .ite ?_ (startsClause_yields.bind fun _ _ => .ite ?_ ?_)
    · refine (hr _).bind fun _ _ =>
        startsClause_yields.bind fun _ _ => .ite ?_ ?_
      · refine (clauses_yields hr).bind fun _ _ => ?_
        exact (symbol_yields _).map fun _ _ => Quotes.of_nil rfl
      · exact (dictItems_yields hr _).map fun _ _ => Quotes.of_nil rfl
    · exact .ite refuse_yields (hunstarred ())
    · refine (rest_yields hfirst (item_yields hr)).bind fun _ _ => ?_
      exact (symbol_yields _).map fun _ _ => Quotes.of_nil rfl
  exact .ite (hafter false)
    ((takeSymbol_yields _).bind fun keyed _ => hafter keyed)

/-- An atom by the kind of its first token. -/
theorem atomRule_yields : Yields b (atomRule r) (Quotes n) := by
  refine peek_slack.bind fun t ht => ?_
  split
  · split
    · next value hvalue =>
        refine advance_yields.map fun _ _ => Quotes.of_nil ?_
        unfold constantWord at hvalue
        split at hvalue <;> cases hvalue <;> rfl
    · exact identifier_yields.map fun _ _ => Quotes.of_nil rfl
  · next value hkind =>
      refine advance_yields.map fun _ _ text htext => ?_
      rw [hkind] at ht
      cases value with
      | text value marked =>
          rw [List.mem_singleton.mp htext]
          simpa [TokenKind.chars] using ht
      | _ => exact absurd htext List.not_mem_nil
  · exact strings_yields b r
  · exact advance_yields.bind fun _ _ => parenthesized_yields hr _
  · exact advance_yields.bind fun _ _ => bracketed_yields hr _
  · exact advance_yields.bind fun _ _ => braced_yields hr _
  · exact advance_yields.map fun _ _ => Quotes.of_nil rfl
  · exact refuse_yields

/-! ## Calls and items -/

theorem argument_yields (a : Arguments) : Yields b (argument r a) Any := by
  refine (isSymbol_yields _).bind fun _ _ => .ite ?_ ?_
  · refine .ite refuse_yields ?_
    exact (starred_yields (hr _)).map fun _ _ => trivial
  refine (takeSymbol_yields _).bind fun _ _ => .ite ?_ ?_
  · exact (hr _).map fun _ _ => trivial
  refine (identifierBefore_yields _).bind fun o _ => ?_
  split
  · exact (hr _).map fun _ _ => trivial
  · refine (hr _).bind fun _ _ => .ite ?_ (.pure trivial)
    exact peek_yields.bind fun _ _ => refuse_yields

omit hr in
theorem separated_yields (a : Arguments) :
    Yields b (arguments.separated a) Any := by
  refine (takeSymbol_yields _).bind fun _ _ => .ite (.pure trivial) ?_
  exact (isSymbol_yields _).bind fun _ _ => .ite (.pure trivial) refuse_yields

theorem arguments_yields (generator : Option Position) :
    Yields b (arguments r generator) Any := by
  refine (repeatFrom_yields (P := Any) trivial fun a _ => ?_).bind fun _ _ => ?_
  · refine (isSymbol_yields _).bind fun _ _ => .ite none_yields ?_
    refine Yields.mono (P := Any) ?_ fun _ _ _ _ => trivial
    refine (argument_yields hr a).bind fun next _ => ?_
    split
    · refine startsClause_yields.bind fun _ _ => .ite ?_ (separated_yields _)
      refine (clauses_yields hr).bind fun _ _ =>
        (isSymbol_yields _).bind fun _ _ => ?_
      exact .ite refuse_yields (.pure trivial)
    · exact separated_yields _
  · exact (symbol_yields _).map fun _ _ => trivial

omit hr in
theorem sliceEnd_yields : Yields b sliceEnd Any :=
  (isSymbol_yields _).bind fun _ _ => (isSymbol_yields _).map fun _ _ => trivial

theorem sliceItem_yields : Yields b (sliceItem r) (Quotes n) := by
  refine position_yields.bind fun pos _ =>
    (isSymbol_yields _).bind fun _ _ => ?_
  extract_lets afterLower
  have hafter : ∀ lower, Maybe (Quotes n) lower →
      Yields b (afterLower lower) (Quotes n) := by
    intro lower hlower
    unfold afterLower
    extract_lets afterUpper afterColon
    have hupper : ∀ upper, Yields b (afterUpper upper) (Quotes n) := by
      intro upper
      refine (takeSymbol_yields _).bind fun _ _ => ?_
      refine .ite (sliceEnd_yields.bind fun _ _ => .ite ?_ ?_)
        (.pure (Quotes.of_nil rfl))
      · exact .pure (Quotes.of_nil rfl)
      · exact (hr _).map fun _ _ => Quotes.of_nil rfl
    have hcolon : ∀ sliced, Yields b (afterColon sliced) (Quotes n) := by
      intro sliced
      refine .ite ?_ ?_
      · refine (isSymbol_yields _).bind fun _ _ =>
          sliceEnd_yields.bind fun _ _ => ?_
        exact .ite (hupper none) ((hr _).bind fun e _ => hupper (some e))
      · split
        · next e => exact .pure (hlower e rfl)
        · exact refuse_yields
    exact .ite (hcolon false)
      ((takeSymbol_yields _).bind fun sliced _ => hcolon sliced)
  exact .ite (hafter none maybe_none)
    ((hr _).bind fun e he => hafter (some e) (maybe_some he))

theorem slices_yields : Yields b (slices r) (Quotes n) := by
  have hitem := orStarred_yields (hr .expression) (sliceItem_yields hr)
  refine position_yields.bind fun pos _ => hitem.bind fun first hfirst => ?_
  refine (repeatFrom_yields (P := fun found => ∀ e ∈ found.1, Quotes n e)
    (fun _ h => by cases h) ?_).bind ?_
  · rintro ⟨more, closed, comma⟩ hmore
    refine .ite none_yields
      ((takeSymbol_yields _).bind fun _ _ => .ite none_yields ?_)
    refine (isSymbol_yields _).bind fun _ _ =>
      .ite (.pure (maybe_some hmore)) ?_
    refine hitem.map fun e he => maybe_some fun e' he' => ?_
    rcases List.mem_cons.mp he' with rfl | he'
    · exact he
    · exact hmore e' he'
  · rintro ⟨more, closed, comma⟩ hmore
    refine .pure ?_
    split
    · refine Quotes.tuple fun e he => ?_
      rcases List.mem_cons.mp he with rfl | he
      · exact hfirst
      · exact hmore e (List.mem_reverse.mp he)
    · exact hfirst

theorem primaryRule_yields : Yields b (primaryRule r) (Quotes n) := by
  refine position_yields.bind fun pos _ =>
    (atomRule_yields hr).bind fun e he => ?_
  refine repeatFrom_yields he fun e he => peek_yields.bind fun t _ => ?_
  split
  · refine advance_yields.bind fun _ _ => ?_
    exact identifier_yields.map fun _ _ => maybe_some (Quotes.of_nil rfl)
  · refine advance_yields.bind fun _ _ => ?_
    exact (arguments_yields hr _).map fun _ _ => maybe_some (Quotes.of_nil rfl)
  · refine advance_yields.bind fun _ _ =>
      (slices_yields hr).bind fun index hindex => ?_
    exact (symbol_yields _).map fun _ _ => maybe_some (Quotes.subscript hindex)
  · exact none_yields

/-! ## Operators -/

theorem awaitRule_yields : Yields b (awaitRule r) (Quotes n) := by
  refine position_yields.bind fun _ _ =>
    (takeWord_yields _).bind fun _ _ => .ite ?_ ?_
  · exact (primaryRule_yields hr).map fun _ _ => Quotes.of_nil rfl
  · exact primaryRule_yields hr

theorem powerRule_yields : Yields b (powerRule r) (Quotes n) := by
  refine position_yields.bind fun _ _ =>
    (awaitRule_yields hr).bind fun base hbase => ?_
  refine (takeSymbol_yields _).bind fun _ _ => .ite ?_ (.pure hbase)
  exact (hr _).map fun _ he => Quotes.binary hbase he

theorem factorRule_yields : Yields b (factorRule r) (Quotes n) := by
  refine peek_yields.bind fun t _ => ?_
  split
  · split
    · refine advance_yields.bind fun _ _ => ?_
      exact (hr _).map fun _ _ => Quotes.of_nil rfl
    · exact powerRule_yields hr
  · exact powerRule_yields hr

omit hr in
theorem leftGrouped_yields {ops : List (String × BinaryOp)}
    {operand : Parser Expr} (h : Yields b operand (Quotes n)) :
    Yields b (leftGrouped ops operand) (Quotes n) := by
  refine position_yields.bind fun _ _ => h.bind fun first hfirst => ?_
  refine repeatFrom_yields hfirst fun left hleft =>
    peek_yields.bind fun t _ => ?_
  split
  · split
    · refine advance_yields.bind fun _ _ => ?_
      exact h.map fun _ he => maybe_some (Quotes.binary hleft he)
    · exact none_yields
  · exact none_yields

theorem bitOrRule_yields : Yields b (bitOrRule r) (Quotes n) :=
  leftGrouped_yields <| leftGrouped_yields <| leftGrouped_yields <|
    leftGrouped_yields <| leftGrouped_yields <| leftGrouped_yields <|
    factorRule_yields hr

omit hr in
theorem compareOp_yields : Yields b compareOp Any := by
  refine peek_yields.bind fun t _ => ?_
  split
  · split
    · exact advance_yields.map fun _ _ => trivial
    · exact .pure trivial
  · exact advance_yields.map fun _ _ => trivial
  · exact advance_yields.bind fun _ _ => (word_yields _).map fun _ _ => trivial
  · refine advance_yields.bind fun _ _ => (takeWord_yields _).bind fun _ _ => ?_
    exact .ite (.pure trivial) (.pure trivial)
  · exact .pure trivial

theorem comparisonRule_yields : Yields b (comparisonRule r) (Quotes n) := by
  refine position_yields.bind fun _ _ =>
    (bitOrRule_yields hr).bind fun left hleft => ?_
  refine (repeatFrom_yields (P := Any) trivial fun pairs _ => ?_).bind
    fun _ _ => ?_
  · refine compareOp_yields.bind fun o _ => ?_
    split
    · exact (bitOrRule_yields hr).map fun _ _ => maybe_some trivial
    · exact none_yields
  · split
    · exact .pure hleft
    · exact .pure (Quotes.of_nil rfl)

theorem inversionRule_yields : Yields b (inversionRule r) (Quotes n) := by
  refine position_yields.bind fun _ _ =>
    (takeWord_yields _).bind fun _ _ => .ite ?_ ?_
  · exact (hr _).map fun _ _ => Quotes.of_nil rfl
  · exact comparisonRule_yields hr

omit hr in
theorem joinedBy_yields {name : String} {op : BoolOp} {operand : Parser Expr}
    (h : Yields b operand (Quotes n)) :
    Yields b (joinedBy name op operand) (Quotes n) := by
  refine position_yields.bind fun _ _ => h.bind fun first hfirst => ?_
  refine (repeatFrom_yields (P := Any) trivial fun more _ => ?_).bind fun _ _ =>
    ?_
  · refine (takeWord_yields _).bind fun _ _ => .ite ?_ none_yields
    exact h.map fun _ _ => maybe_some trivial
  · split
    · exact .pure hfirst
    · exact .pure (Quotes.of_nil rfl)

theorem disjunctionRule_yields : Yields b (disjunctionRule r) (Quotes n) :=
  joinedBy_yields <| joinedBy_yields <| inversionRule_yields hr

/-! ## Parameters -/

theorem annotationOf_yields (annotated : Bool) :
    Yields b (annotationOf r annotated) Any := by
  refine .ite (.pure trivial)
    ((takeSymbol_yields _).bind fun _ _ => .ite ?_ (.pure trivial))
  exact (hr _).map fun _ _ => trivial

theorem defaultOf_yields : Yields b (defaultOf r) Any := by
  refine (takeSymbol_yields _).bind fun _ _ => .ite ?_ (.pure trivial)
  exact (hr _).map fun _ _ => trivial

theorem parameter_yields (annotated : Bool) (p : ParameterList) :
    Yields b (parameter r annotated p) Any := by
  refine peek_yields.bind fun t _ => ?_
  split
  · exact .ite refuse_yields (advance_yields.map fun _ _ => trivial)
  · refine .ite refuse_yields (advance_yields.bind fun _ _ => ?_)
    refine (isSymbol_yields _).bind fun _ _ => .ite (.pure trivial) ?_
    refine identifier_yields.bind fun name _ => ?_
    refine .ite (.pure trivial)
      ((takeSymbol_yields _).bind fun _ _ => .ite ?_ (.pure trivial))
    exact (orStarred_yields (hr _) (hr _)).map fun _ _ => trivial
  · refine .ite refuse_yields (advance_yields.bind fun _ _ => ?_)
    refine identifier_yields.bind fun name _ => ?_
    exact (annotationOf_yields hr _).map fun _ _ => trivial
  · refine identifier_yields.bind fun name _ =>
      (annotationOf_yields hr _).bind fun _ _ => ?_
    refine (defaultOf_yields hr).bind fun _ _ =>
      .ite (.pure trivial) (.ite ?_ (.pure trivial))
    exact peek_yields.bind fun _ _ => refuse_yields

theorem parameters_yields (annotated : Bool) (close : String) :
    Yields b (parameters r annotated close) Any := by
  refine (repeatFrom_yields (P := Any) trivial fun p _ => ?_).bind fun p _ => ?_
  · refine (isSymbol_yields _).bind fun _ _ =>
      .ite none_yields (.ite refuse_yields ?_)
    refine (parameter_yields hr _ _).bind fun p _ =>
      (takeSymbol_yields _).bind fun _ _ => ?_
    refine .ite (.pure (maybe_some trivial))
      ((isSymbol_yields _).bind fun _ _ => ?_)
    exact .ite (.pure (maybe_some trivial)) refuse_yields
  · exact .ite refuse_yields (.pure trivial)

theorem lambdaRule_yields : Yields b (lambdaRule r) (Quotes n) := by
  refine position_yields.bind fun _ _ => (word_yields _).bind fun _ _ => ?_
  refine (parameters_yields hr _ _).bind fun _ _ =>
    (symbol_yields _).bind fun _ _ => ?_
  exact (hr _).map fun _ _ => Quotes.of_nil rfl

/-! ## Expressions -/

omit hr in
theorem startsSoftly_yields : Yields b startsSoftly Any := by
  refine peekIdentifier_yields.bind fun o _ => ?_
  split
  · exact .ite (.pure trivial) (succeeds_yields.map fun _ _ => trivial)
  · exact .pure trivial

omit hr in
theorem explainMissingComma_yields (soft : Bool) (first : Expr) :
    Yields b (explainMissingComma r soft first) Any := by
  refine .ite (.pure trivial) ?_
  split
  · exact .pure trivial
  · exact .pure trivial
  · refine succeeds_yields.bind fun o _ => ?_
    split
    · exact .ite (faultAt_yields _) (.pure trivial)
    · exact .pure trivial

theorem expressionRule_yields : Yields b (expressionRule r) (Quotes n) := by
  refine (isWord_yields _).bind fun _ _ => .ite (lambdaRule_yields hr) ?_
  refine position_yields.bind fun pos _ =>
    explaining_yields.bind fun explain _ => ?_
  extract_lets afterSoft
  have hafter : ∀ soft, Yields b (afterSoft soft) (Quotes n) := by
    intro soft
    refine (disjunctionRule_yields hr).bind fun body hbody => ?_
    extract_lets afterBody
    have hbody : ∀ u, Yields b (afterBody u) (Quotes n) := by
      intro _
      refine (takeWord_yields _).bind fun _ _ => .ite ?_ (.pure hbody)
      refine (disjunctionRule_yields hr).bind fun _ _ =>
        (word_yields _).bind fun _ _ => ?_
      exact (hr _).map fun _ _ => Quotes.of_nil rfl
    exact .ite ((explainMissingComma_yields _ _).bind fun _ _ =>
      hbody ()) (hbody ())
  exact .ite (startsSoftly_yields.bind fun soft _ => hafter soft) (hafter true)

theorem namedRule_yields : Yields b (namedRule r) (Quotes n) := by
  refine position_yields.bind fun pos _ =>
    (identifierBefore_yields _).bind fun o _ => ?_
  split
  · exact (hr _).map fun _ _ => Quotes.of_nil rfl
  · refine (expressionRule_yields hr).bind fun e he =>
      (isSymbol_yields _).bind fun _ _ => ?_
    exact .ite refuse_yields (.pure he)

theorem targetRule_yields : Yields b (targetRule r) (Quotes n) := by
  refine (orStarred_yields (primaryRule_yields hr) (primaryRule_yields hr)).bind
    fun e he => ?_
  split
  · exact explaining_yields.bind fun _ _ =>
      .ite (faultAt_yields _) refuse_yields
  · exact .pure he

theorem rule_yields (k : Nonterminal) : Yields b (rule r k) (Quotes n) := by
  cases k with
  | starExpressions =>
      exact tupleOf_yields
        (orStarred_yields (bitOrRule_yields hr) (expressionRule_yields hr))
  | named => exact namedRule_yields hr
  | expression => exact expressionRule_yields hr
  | disjunction => exact disjunctionRule_yields hr
  | inversion => exact inversionRule_yields hr
  | bitOr => exact bitOrRule_yields hr
  | factor => exact factorRule_yields hr
  | targets => exact tupleOf_yields (targetRule_yields hr)

end Rules

/-- All rules keep the budget, by induction on the levels below them. -/
theorem expressionAt_yields {n : Nat} (b : Budget n) (levels : Nat)
    (k : Nonterminal) : Yields b (expressionAt levels k) (Quotes n) := by
  induction levels generalizing k with
  | zero => exact refuse_yields
  | succ levels ih => exact rule_yields ih k

/-! ## Texts -/

theorem run_ok {α : Type} {p : Parser α} {t : Tokens} {a : α}
    (h : run p t = .ok a) :
    ∃ after, p { tokens := t.tokens } = .ok a after := by
  unfold run at h
  split at h
  · next after hp =>
      cases h
      exact ⟨after, hp⟩
  · cases h
  · split at h <;> cases h

end Grammar

theorem unifyLineEnds_length (cs : List Char) :
    (Text.unifyLineEnds cs).length ≤ cs.length := by
  induction cs using Text.unifyLineEnds.induct with
  | case1 => exact Nat.le_refl _
  | case2 cs ih =>
      rw [Text.unifyLineEnds]
      simp only [List.length_cons]
      omega
  | case3 c cs hcs ih =>
      rw [Text.unifyLineEnds]
      · simp only [List.length_cons]
        omega
      · exact hcs

section Texts

open Grammar BridgeBindings.Syntax.Parser

/-- The budget that asks for no more than the slack. -/
def spending (n : Nat) : Budget n where
  holds ts := slack ts ≤ n
  tail ts h := (slack_tail ts).trans h
  slack _ h := h

/-- An expression that takes all of a text. -/
theorem whole_yields {n : Nat} (b : Budget n) (levels : Nat) : Yields b (do
    let e ← tupleOf (expressionAt levels .expression)
    repeatFrom () fun _ => do
      if (← peek).kind == .newline then
        advance
        return some ()
      else return none
    kind .finish
    return e) (Quotes n) := by
  refine (tupleOf_yields (expressionAt_yields b levels _)).bind fun e he => ?_
  refine (repeatFrom_yields (P := Any) trivial fun _ _ => ?_).bind fun _ _ => ?_
  · refine peek_yields.bind fun _ _ => .ite ?_ none_yields
    exact advance_yields.map fun _ _ => maybe_some trivial
  · exact (kind_yields _).map fun _ _ => he

theorem readExpression_empty : (readExpression "").isOk = false := by
  decide +kernel

/-- Every text that an expression quotes is shorter than the text it was read
from. -/
theorem quoted_shorter {text quote : String} {e : Expr}
    (h : readExpression text = .ok e) (hq : quote ∈ e.quoted) :
    quote.length < text.length := by
  have hlength := unifyLineEnds_length text.toList
  have hchars := Lexer.chars_tokens ⟨1, 0⟩ (Text.unifyLineEnds text.toList)
  have hslack :=
    slack_le (Lexer.tokens ⟨1, 0⟩ (Text.unifyLineEnds text.toList)).tokens
  rw [String.length_toList] at hlength
  have hquote : quote.length ≤
      slack (Lexer.tokens ⟨1, 0⟩ (Text.unifyLineEnds text.toList)).tokens := by
    obtain ⟨after, hafter⟩ := run_ok h
    exact (whole_yields (spending _) _ _ _ _ (Nat.le_refl _) hafter).2 quote hq
  have hpos : 0 < text.length := by
    rcases Nat.eq_zero_or_pos text.length with hzero | hpos
    · rw [String.length_eq_zero_iff.mp hzero] at h
      have := readExpression_empty
      rw [h] at this
      cases this
    · exact hpos
  omega

end Texts

end BridgeBindings.Syntax
