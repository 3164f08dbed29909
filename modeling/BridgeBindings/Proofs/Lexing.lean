import BridgeBindings.Syntax.Lexer
import Mathlib.Order.Nat

/-!
# The strings among the tokens of a text

No character of a text is read twice, so the string tokens of a text together
are no longer than the text. The argument is a budget: what the strings so far
hold and what is still to be read, which no step of the reading raises.

A string also has a quote that is not part of what it stands for. `slack` counts
a token without it, and is what the grammar's budget is made of.
-/

namespace BridgeBindings.Syntax

/-! ## Cursors -/

namespace Cursor

theorem next_rest (c : Cursor) : c.next.rest = c.rest.tail := by
  unfold next
  split
  · next h => rw [h]; rfl
  · next h => rw [h]; rfl
  · next h => rw [h]; rfl

theorem skip_rest (c : Cursor) (n : Nat) : (c.skip n).rest = c.rest.drop n := by
  induction n generalizing c with
  | zero => rfl
  | succ n ih => rw [skip, ih, next_rest, List.drop_tail]

theorem next_rest_length (c : Cursor) : c.next.rest.length ≤ c.rest.length := by
  rw [next_rest, List.length_tail]
  omega

theorem skip_rest_length (c : Cursor) (n : Nat) :
    (c.skip n).rest.length ≤ c.rest.length := by
  rw [skip_rest, List.length_drop]
  omega

end Cursor

/-! ## Measures of tokens -/

/-- The characters of a token that is a string. No numeral holds a text, and
`chars_number` says so for those that are read. -/
def TokenKind.chars : TokenKind → Nat
  | .string raw => raw.length
  | .number (.text text _) => text.length + 1
  | _ => 0

/-- What the tokens of a list hold, put together. -/
def chars : List Token → Nat
  | [] => 0
  | t :: ts => t.kind.chars + chars ts

/-- As `chars`, without the quote that every string starts with. -/
def slack : List Token → Nat
  | [] => 0
  | t :: ts => (t.kind.chars - 1) + slack ts

@[simp] theorem chars_nil : chars [] = 0 := rfl

@[simp] theorem chars_cons (t : Token) (ts : List Token) :
    chars (t :: ts) = t.kind.chars + chars ts := rfl

@[simp] theorem slack_nil : slack [] = 0 := rfl

@[simp] theorem slack_cons (t : Token) (ts : List Token) :
    slack (t :: ts) = (t.kind.chars - 1) + slack ts := rfl

theorem chars_append (ts us : List Token) :
    chars (ts ++ us) = chars ts + chars us := by
  induction ts with
  | nil => simp
  | cons t ts ih => simp [ih]; omega

theorem chars_reverse (ts : List Token) : chars ts.reverse = chars ts := by
  induction ts with
  | nil => rfl
  | cons t ts ih => simp [chars_append, ih]; omega

theorem slack_le (ts : List Token) : slack ts ≤ chars ts - 1 := by
  induction ts with
  | nil => exact Nat.le_refl _
  | cons t ts ih =>
      rw [slack_cons, chars_cons]
      omega

/-! ## Numerals -/

namespace Numeral

/-- A reading that gives a number, if it gives anything. -/
def Numeric (r : Read) : Prop :=
  ∀ value rest, r = some (value, rest) → (TokenKind.number value).chars = 0

theorem numeric_none : Numeric none := fun _ _ h => by cases h

theorem numeric_finish {value : Constant}
    (h : (TokenKind.number value).chars = 0) (rest : List Char) :
    Numeric (finish value rest) := by
  intro value' rest' hr
  unfold finish at hr
  split at hr
  · cases hr
    exact h
  · cases hr

theorem numeric_inBase (base : Nat) (cs : List Char) :
    Numeric (inBase base cs) := by
  unfold inBase
  dsimp only
  split
  · split
    · exact numeric_none
    · exact numeric_finish rfl _
  · exact numeric_none

theorem numeric_finishFraction (digits : List Char) (power : Int)
    (rest : List Char) : Numeric (finishFraction digits power rest) := by
  unfold finishFraction
  dsimp only
  split <;> exact numeric_finish rfl _

theorem numeric_withExponent (whole : Bool) (digits : List Char) (power : Int)
    (cs : List Char) : Numeric (withExponent whole digits power cs) := by
  unfold withExponent
  extract_lets value without
  have hwithout : ∀ rest, Numeric (without rest) := by
    intro rest
    dsimp only [without]
    split
    · exact numeric_finishFraction _ _ _
    · exact numeric_finishFraction _ _ _
    · split
      · split
        · exact numeric_none
        · exact numeric_finish rfl _
      · exact numeric_finishFraction _ _ _
  split
  · split
    · next signed _ _ _ _ =>
        have hsigned : ∀ negative r, Numeric (signed negative r) := by
          intro negative r
          dsimp only [signed]
          split
          · exact numeric_finishFraction _ _ _
          · exact numeric_none
        split
        · exact hsigned false _
        · exact hsigned true _
        · split
          · exact hsigned false _
          · exact hwithout _
        · exact hwithout _
    · exact hwithout _
  · exact hwithout []

theorem numeric_fraction (digits cs : List Char) :
    Numeric (fraction digits cs) := by
  unfold fraction
  split
  · split
    · split
      · exact numeric_withExponent _ _ _ _
      · exact numeric_none
    · exact numeric_withExponent _ _ _ _
  · exact numeric_withExponent _ _ _ _

theorem numeric_decimal (cs : List Char) : Numeric (decimal cs) := by
  unfold decimal
  split
  · exact numeric_fraction _ _
  · exact numeric_withExponent _ _ _ _
  · exact numeric_none

theorem numeric_afterZero (cs : List Char) : Numeric (afterZero cs) := by
  unfold afterZero
  split
  · split
    · intro value rest h
      cases h
      rfl
    · exact numeric_none
  · exact numeric_decimal cs

theorem chars_number (cs : List Char) : Numeric (read cs) := by
  unfold read
  split
  · exact numeric_fraction _ _
  · exact numeric_inBase _ _
  · exact numeric_inBase _ _
  · exact numeric_inBase _ _
  · exact numeric_inBase _ _
  · exact numeric_inBase _ _
  · exact numeric_inBase _ _
  · exact numeric_afterZero _
  · exact numeric_decimal _

end Numeral

namespace Lexer

/-! ## One step

`budget` is what a state has read into strings and what it has still to read. -/

/-- The characters of the strings that have been read, and those that are
left to read. -/
def State.budget (s : State) : Nat := chars s.tokens + s.cursor.rest.length

/-- The state that a step ends in, whether it goes on or stops. -/
def Step.state : Step → State
  | .more s => s
  | .stop s _ => s

theorem budget_insert {kind : TokenKind} (h : kind.chars = 0)
    (s : State) (row : Nat) : (s.insert kind row).budget = s.budget := by
  simp [State.budget, State.insert, h]

theorem budget_emit (s : State) (kind : TokenKind) (after : Cursor) :
    (s.emit kind after).budget = kind.chars + chars s.tokens +
    after.rest.length := by
  simp [State.budget, State.emit]

theorem budget_emit_le {kind : TokenKind} (h : kind.chars = 0) {s : State}
    {after : Cursor} (hafter : after.rest.length ≤ s.cursor.rest.length) :
    (s.emit kind after).budget ≤ s.budget := by
  rw [budget_emit, h]
  unfold State.budget
  omega

theorem budget_fault (s : State) (row : Nat) (overrides : Bool) :
    (fault s row overrides).state.budget = s.budget :=
  budget_insert rfl s row

theorem budget_strayBackslash (s : State) (after : Cursor) :
    (strayBackslash s after).state.budget = s.budget := by
  unfold strayBackslash
  split
  · exact budget_insert rfl s _
  · exact budget_fault s _ _

theorem indentation_rest_length {fuel : Nat} {s after : Cursor}
    {at_ indent : Indent} {held : Option Nat}
    (h : indentation s at_ held fuel = some (after, indent)) :
    after.rest.length ≤ s.rest.length := by
  induction fuel generalizing s at_ held with
  | zero =>
      rw [indentation] at h
      cases h
      exact Nat.le_refl _
  | succ fuel ih =>
      have hnext := s.next_rest_length
      have hnext' := s.next.next_rest_length
      rw [indentation.eq_def] at h
      dsimp only at h
      split at h
      · exact (ih h).trans hnext
      · exact (ih h).trans hnext
      · exact (ih h).trans hnext
      · exact (ih h).trans (hnext'.trans hnext)
      · cases h
      · split at h <;> cases h <;> exact Nat.le_refl _

theorem budget_closeIndents (row width : Nat) (s : State)
    (indents : List Indent) :
    (closeIndents row width s indents).budget = s.budget := by
  induction indents generalizing s with
  | nil => rfl
  | cons top rest ih =>
      cases rest with
      | nil => rfl
      | cons next rest =>
          rw [closeIndents]
          split
          · rw [ih, budget_insert rfl]
          · rfl
          · exact fun h => by cases h

theorem budget_openRow (s : State) : (openRow s).state.budget ≤ s.budget := by
  unfold openRow
  split
  · exact (budget_fault _ _ _).le
  · next after indent h =>
      have hafter := indentation_rest_length h
      have hmoved : chars s.tokens + after.rest.length ≤ s.budget := by
        unfold State.budget
        omega
      dsimp only
      split
      · exact hmoved
      split
      · have hskip :=
          after.skip_rest_length (after.rest.takeWhile (· ≠ '\n')).length
        have hnext :=
          (after.skip (after.rest.takeWhile (· ≠ '\n')).length).next_rest_length
        show chars s.tokens + (after.skip _).next.rest.length ≤ _
        omega
      split
      · exact hmoved
      split
      · split
        · exact hmoved
        · exact (budget_fault _ _ _).trans_le hmoved
      split
      · split
        · exact (budget_fault _ _ _).trans_le hmoved
        split
        · exact (budget_fault _ _ _).trans_le hmoved
        · exact (@budget_insert .indent rfl
            { s with cursor := after, rowStart := false } _).trans_le hmoved
      have hclosed := budget_closeIndents
        (if after.rest.isEmpty then
          { s with cursor := after, rowStart := false : State }.endRow
            else after.row)
        indent.width { s with cursor := after, rowStart := false } s.indents
      split
      · exact hclosed.trans_le hmoved
      · split
        · exact (budget_fault _ _ _).trans_le hmoved
        · exact hclosed.trans_le hmoved

/-! ## Tokens that take characters -/

theorem closeString_rest_length {fuel : Nat} {quote : Char} {triple : Bool}
    {c after : Cursor} (h : closeString quote triple c fuel = some after) :
    after.rest.length ≤ c.rest.length := by
  induction fuel generalizing c with
  | zero => cases h
  | succ fuel ih =>
      have hnext := c.next_rest_length
      have hnext' := c.next.next_rest_length
      rw [closeString] at h
      split at h
      · cases h
      · cases h
      · exact (ih h).trans (hnext'.trans hnext)
      · split at h
        · split at h
          · cases h
            exact c.skip_rest_length 3
          · exact (ih h).trans hnext
        · split at h
          · cases h
            exact hnext
          split at h
          · cases h
          · exact (ih h).trans hnext

theorem budget_readString (s : State) (lead : Nat) :
    (readString s lead).state.budget ≤ s.budget := by
  unfold readString
  dsimp only
  split
  · split
    · next quote rest hbody after hclose =>
        have hafter :=
          (closeString_rest_length hclose).trans (s.cursor.skip_rest_length _)
        show (s.emit _ after).budget ≤ _
        rw [budget_emit]
        simp only [TokenKind.chars, List.length_take, State.budget]
        omega
    · exact (budget_fault _ _ _).le
  · exact (budget_fault _ _ _).le

theorem budget_readName (s : State) : (readName s).state.budget ≤ s.budget := by
  unfold readName
  dsimp only
  split
  · exact budget_readString _ _
  split
  · exact budget_emit_le rfl (s.cursor.skip_rest_length _)
  · exact (budget_fault _ _ _).le

theorem budget_readNumber (s : State) :
    (readNumber s).state.budget ≤ s.budget := by
  unfold readNumber
  split
  · next value rest hread =>
      exact budget_emit_le (Numeral.chars_number _ _ _ hread)
        (s.cursor.skip_rest_length _)
  · exact (budget_fault _ _ _).le

theorem budget_readSymbol (s : State) (c : Char) :
    (readSymbol s c).state.budget ≤ s.budget := by
  have hnext := s.cursor.next_rest_length
  unfold readSymbol
  split
  · exact budget_emit_le rfl (s.cursor.skip_rest_length _)
  dsimp only
  split
  · split
    · exact (budget_fault _ _ _).le
    · exact budget_emit_le
        (s := { s with brackets := (c, s.cursor.row) :: s.brackets }) rfl hnext
  split
  · split
    · split
      · next outer _ _ =>
          exact budget_emit_le (s := { s with brackets := outer }) rfl hnext
      · exact (budget_fault _ _ _).le
    · exact (budget_fault _ _ _).le
  · split
    · exact budget_emit_le rfl hnext
    · exact (budget_fault _ _ _).le

/-! ## The loop -/

theorem budget_finish (s : State) : (finish s).state.budget = s.budget := by
  unfold finish
  split <;> exact budget_insert rfl _ _

theorem budget_step (s : State) : (step s).state.budget ≤ s.budget := by
  have hnext := s.cursor.next_rest_length
  have hnext' := s.cursor.next.next_rest_length
  have hmove : ∀ {after : Cursor}, after.rest.length ≤ s.cursor.rest.length →
      chars s.tokens + after.rest.length ≤ s.budget := by
    intro after hafter
    unfold State.budget
    omega
  -- one lemma for each thing that is read; a token holds no more characters
  -- than the cursor has left behind
  unfold step
  split
  · exact budget_openRow s
  split
  · exact (budget_finish s).le
  dsimp only
  split
  · exact hmove hnext
  split
  · exact hmove (s.cursor.skip_rest_length _)
  split
  · split
    · exact @budget_emit_le .newline rfl _ _ hnext
    · exact hmove hnext
  split
  · split
    · exact hmove (hnext'.trans hnext)
    · exact (budget_strayBackslash _ _).le
  split
  · exact budget_readString _ _
  split
  · exact budget_readName _
  split
  · exact budget_readNumber _
  · exact budget_readSymbol _ _

theorem chars_run (fuel : Nat) (s : State) :
    chars (run s fuel).tokens ≤ s.budget := by
  induction fuel generalizing s with
  | zero =>
      rw [run, chars_reverse]
      exact Nat.le_add_right _ _
  | succ fuel ih =>
      have hstep := budget_step s
      rw [run]
      split
      · next after _ h =>
          rw [h] at hstep
          rw [chars_reverse]
          exact (Nat.le_add_right _ _).trans hstep
      · next after h =>
          rw [h] at hstep
          exact (ih after).trans hstep

/-- The string tokens of a text are together no longer than the text. -/
theorem chars_tokens (start : Position) (text : List Char) :
    chars (tokens start text).tokens ≤ text.length := by
  refine (chars_run _ _).trans ?_
  simp [State.budget]

end Lexer

end BridgeBindings.Syntax
