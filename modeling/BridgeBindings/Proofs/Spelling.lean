import BridgeBindings.Proofs.Lexing
import BridgeBindings.Text.NormalForm

/-!
# Names without dots

A word ends before a dot, so no token that is a name holds one. The normal form
of a name holds one no more than the name does: what a character is taken apart
to, and what two are put together to, stands in the tables, which have no dot in
them, or is a letter of the Hangul script.
-/

namespace BridgeBindings

/-! ## Tables of characters -/

namespace Text

theorem undotted_ofList {row : String} {cs : List Char}
    (hrow : row = String.ofList cs) (h : cs.all (·.toNat != 46) = true) :
    '.' ∉ row.toList := by
  rw [hrow, String.toList_ofList]
  intro hdot
  simpa using List.all_eq_true.mp h _ hdot

-- row by row, since evaluating all of them together takes the kernel too much
-- memory
set_option maxRecDepth 4000 in
theorem compositeRows_undotted : ∀ row ∈ compositeRows, '.' ∉ row.toList := by
  unfold compositeRows
  simp only [List.forall_mem_cons]
  and_intros
  all_goals first
    | exact List.forall_mem_nil _
    | exact undotted_ofList rfl (by decide +kernel)

set_option maxRecDepth 4000 in
theorem replacedRows_undotted : ∀ row ∈ replacedRows, '.' ∉ row.toList := by
  unfold replacedRows
  simp only [List.forall_mem_cons]
  and_intros
  all_goals first
    | exact List.forall_mem_nil _
    | exact undotted_ofList rfl (by decide +kernel)

theorem mem_of_mem_splitOnChar {sep c : Char} {cs part : List Char}
    (hpart : part ∈ splitOnChar sep cs) (hc : c ∈ part) : c ∈ cs := by
  induction cs generalizing part with
  | nil =>
      rw [List.mem_singleton.mp hpart] at hc
      cases hc
  | cons d ds ih =>
      rw [splitOnChar] at hpart
      split at hpart
      · rcases List.mem_cons.mp hpart with rfl | hpart
        · cases hc
        · exact List.mem_cons_of_mem _ (ih hpart hc)
      · split at hpart
        · rw [List.mem_singleton.mp hpart] at hc
          rw [List.mem_singleton.mp hc]
          exact List.mem_cons_self
        · next first rest hsplit =>
            rcases List.mem_cons.mp hpart with rfl | hpart
            · rcases List.mem_cons.mp hc with rfl | hc
              · exact List.mem_cons_self
              · exact List.mem_cons_of_mem _
                  (ih (hsplit ▸ List.mem_cons_self) hc)
            · exact List.mem_cons_of_mem _
                (ih (hsplit ▸ List.mem_cons_of_mem _ hpart) hc)

theorem entriesOf_undotted {rows : List String}
    (h : ∀ row ∈ rows, '.' ∉ row.toList) {c : Char} {cs : List Char}
    (he : (c, cs) ∈ entriesOf rows) : '.' ∉ c :: cs := by
  obtain ⟨word, hword, hc⟩ := List.mem_filterMap.mp he
  obtain ⟨row, hrow, hword⟩ := List.mem_flatMap.mp hword
  obtain ⟨part, hpart, rfl⟩ := List.mem_map.mp hword
  rw [String.toList_ofList] at hc
  intro hdot
  cases part with
  | nil => cases hc
  | cons d ds =>
      cases hc
      exact h row hrow (mem_of_mem_splitOnChar hpart hdot)

/-! ## The normal form -/

theorem ofNat_ne_dot {n : Nat} (h : n ≠ 46) : Char.ofNat n ≠ '.' := by
  intro he
  by_cases hvalid : n.isValidChar
  · rw [Char.ofNat, dif_pos hvalid] at he
    exact h (congrArg Char.toNat he)
  · rw [Char.ofNat, dif_neg hvalid] at he
    exact absurd (congrArg Char.toNat he) (by decide)

theorem syllableLetters_undotted {c : Char} {letters : List Char}
    (h : syllableLetters c = some letters) : '.' ∉ letters := by
  unfold syllableLetters at h
  extract_lets n last at h
  split at h
  · cases h
  · cases h
    intro hdot
    rcases List.mem_cons.mp hdot with hdot | hdot
    · exact ofNat_ne_dot (by omega) hdot.symm
    rcases List.mem_cons.mp hdot with hdot | hdot
    · exact ofNat_ne_dot (by omega) hdot.symm
    · split at hdot
      · cases hdot
      · exact ofNat_ne_dot (by omega) (List.mem_singleton.mp hdot).symm

theorem mem_of_lookup {entries : List (Char × List Char)} {c : Char}
    {cs : List Char} (h : entries.lookup c = some cs) : (c, cs) ∈ entries := by
  obtain ⟨before, later, rfl, -⟩ := List.lookup_eq_some_iff.mp h
  exact List.mem_append_right _ List.mem_cons_self

theorem takeApart_undotted {depth : Nat} {c : Char} (h : c ≠ '.') :
    '.' ∉ takeApart depth c := by
  have hself : '.' ∉ [c] := fun hdot => h (List.mem_singleton.mp hdot).symm
  induction depth generalizing c with
  | zero => exact hself
  | succ depth ih =>
      rw [takeApart]
      split
      · exact hself
      split
      · next hletters => exact syllableLetters_undotted hletters
      · next cs _ hcs =>
          exact fun hdot => entriesOf_undotted replacedRows_undotted
            (mem_of_lookup hcs) (List.mem_cons_of_mem _ hdot)
      · next cs _ _ hcs =>
          intro hdot
          obtain ⟨d, hd, hdot⟩ := List.mem_flatMap.mp hdot
          have hne : d ≠ '.' := by
            rintro rfl
            exact entriesOf_undotted compositeRows_undotted
              (mem_of_lookup hcs) (List.mem_cons_of_mem _ hd)
          exact ih hne (fun hdot => hne (List.mem_singleton.mp hdot).symm) hdot
      · exact hself

theorem mem_placeMark {c d : Char} {ds : List Char} (h : c ∈ placeMark d ds) :
    c ∈ d :: ds := by
  induction ds with
  | nil => exact h
  | cons e ds ih =>
      rw [placeMark] at h
      split at h
      · rcases List.mem_cons.mp h with rfl | h
        · exact List.mem_cons_of_mem _ List.mem_cons_self
        · rcases List.mem_cons.mp (ih h) with rfl | h
          · exact List.mem_cons_self
          · exact List.mem_cons_of_mem _ (List.mem_cons_of_mem _ h)
      · exact h

theorem mem_orderMarks {c : Char} {cs : List Char} (h : c ∈ orderMarks cs) :
    c ∈ cs := by
  induction cs with
  | nil => exact h
  | cons d ds ih =>
      rcases List.mem_cons.mp (mem_placeMark h) with rfl | h
      · exact List.mem_cons_self
      · exact List.mem_cons_of_mem _ (ih h)

theorem joinSyllable_ne_dot {a b c : Char} (h : joinSyllable a b = some c) :
    c ≠ '.' := by
  unfold joinSyllable firstSyllable at h
  dsimp only at h
  split at h
  · obtain rfl := Option.some.inj h
    exact ofNat_ne_dot (by omega)
  split at h
  · next hjoins =>
      simp only [Bool.and_eq_true, decide_eq_true_eq] at hjoins
      obtain rfl := Option.some.inj h
      exact ofNat_ne_dot (by omega)
  · cases h

theorem joined_ne_dot {a b c : Char} (h : joined? a b = some c) : c ≠ '.' := by
  unfold joined? at h
  cases hs : joinSyllable a b with
  | some d =>
      rw [hs] at h
      obtain rfl : d = c := Option.some.inj h
      exact joinSyllable_ne_dot hs
  | none =>
      rw [hs, Option.orElse_none] at h
      obtain ⟨⟨d, ds⟩, hd, rfl⟩ := Option.map_eq_some_iff.mp h
      have hmem : (d, ds) ∈ composites := List.mem_of_find?_eq_some hd
      rintro rfl
      exact entriesOf_undotted compositeRows_undotted hmem List.mem_cons_self

/-- What is put together holds a dot only if the letter is one, or what follows
it holds one. -/
theorem joinFrom_undotted {letter : Char} {marks cs : List Char}
    (hletter : letter ≠ '.') (hmarks : '.' ∉ marks) (hcs : '.' ∉ cs) :
    '.' ∉ joinFrom letter marks cs := by
  induction cs generalizing letter marks with
  | nil =>
      rw [joinFrom]
      intro hdot
      rcases List.mem_cons.mp hdot with hdot | hdot
      · exact hletter hdot.symm
      · exact hmarks (List.mem_reverse.mp hdot)
  | cons c cs ih =>
      rw [List.mem_cons, not_or] at hcs
      obtain ⟨hc, hcs⟩ := hcs
      rw [joinFrom]
      split
      · next joined hjoined =>
          split at hjoined
          · cases hjoined
          · exact ih (joined_ne_dot hjoined) hmarks hcs
      · split
        · intro hdot
          rcases List.mem_append.mp hdot with hdot | hdot
          · rcases List.mem_cons.mp hdot with hdot | hdot
            · exact hletter hdot.symm
            · exact hmarks (List.mem_reverse.mp hdot)
          · exact ih (Ne.symm hc) List.not_mem_nil hcs hdot
        · refine ih hletter (fun hdot => ?_) hcs
          rcases List.mem_cons.mp hdot with hdot | hdot
          · exact hc hdot
          · exact hmarks hdot

theorem join_undotted {cs : List Char} (h : '.' ∉ cs) : '.' ∉ join cs := by
  induction cs with
  | nil => exact h
  | cons c cs ih =>
      rw [List.mem_cons, not_or] at h
      obtain ⟨hc, hcs⟩ := h
      rw [join]
      split
      · exact joinFrom_undotted (Ne.symm hc) List.not_mem_nil hcs
      · exact fun hdot => (List.mem_cons.mp hdot).elim hc (ih hcs)

theorem normalForm_undotted {s : String} (h : '.' ∉ s.toList) :
    '.' ∉ (normalForm s).toList := by
  unfold normalForm
  split
  · exact h
  · rw [String.toList_ofList]
    refine join_undotted fun hdot => ?_
    obtain ⟨c, hc, hdot⟩ := List.mem_flatMap.mp (mem_orderMarks hdot)
    exact takeApart_undotted (fun he => h (he ▸ hc)) hdot

end Text

/-! ## The tokens of a text -/

namespace Syntax

/-- A token that is no name with a dot. -/
def TokenKind.Undotted : TokenKind → Prop
  | .name id => '.' ∉ id.toList
  | _ => True

/-- None of these tokens is a name with a dot. -/
def Undotted (ts : List Token) : Prop := ∀ t ∈ ts, t.kind.Undotted

theorem undotted_cons {t : Token} {ts : List Token} (h : t.kind.Undotted)
    (hts : Undotted ts) : Undotted (t :: ts) :=
  List.forall_mem_cons.mpr ⟨h, hts⟩

theorem Undotted.tail {ts : List Token} (h : Undotted ts) : Undotted ts.tail :=
  fun t ht => h t (List.mem_of_mem_tail ht)

namespace Lexer

section

variable {s : State} (hs : Undotted s.tokens)

include hs

theorem insert_undotted (kind : TokenKind) (h : kind.Undotted) (row : Nat) :
    Undotted (s.insert kind row).tokens := undotted_cons h hs

theorem emit_undotted (kind : TokenKind) (h : kind.Undotted) (after : Cursor) :
    Undotted (s.emit kind after).tokens := undotted_cons h hs

theorem fault_undotted (row : Nat) (overrides : Bool) :
    Undotted (fault s row overrides).state.tokens :=
  insert_undotted hs .unread trivial row

theorem strayBackslash_undotted (after : Cursor) :
    Undotted (strayBackslash s after).state.tokens := by
  unfold strayBackslash
  split
  · exact insert_undotted hs .unread trivial _
  · exact fault_undotted hs _ _

theorem closeIndents_undotted (row width : Nat) (indents : List Indent) :
    Undotted (closeIndents row width s indents).tokens := by
  induction indents generalizing s with
  | nil => exact hs
  | cons top rest ih =>
      cases rest with
      | nil => exact hs
      | cons next rest =>
          rw [closeIndents]
          split
          · exact ih (insert_undotted hs .dedent trivial row)
          · exact hs
          · exact fun h => by cases h

theorem openRow_undotted : Undotted (openRow s).state.tokens := by
  unfold openRow
  split
  · exact fault_undotted hs _ _
  · next after indent _ =>
      extract_lets moved comment atEnd row
      split
      · exact hs
      split
      · exact hs
      split
      · exact hs
      split
      · split
        · exact hs
        · exact fault_undotted (s := moved) hs _ _
      split
      · split
        · exact fault_undotted (s := moved) hs _ _
        split
        · exact fault_undotted (s := moved) hs _ _
        · exact insert_undotted (s := moved) hs .indent trivial _
      have hclosed :
          Undotted (closeIndents row indent.width moved s.indents).tokens :=
        closeIndents_undotted (s := moved) hs _ _ _
      split
      · exact hclosed
      split
      · exact fault_undotted (s := moved) hs _ _
      · exact hclosed

theorem readString_undotted (lead : Nat) :
    Undotted (readString s lead).state.tokens := by
  unfold readString
  dsimp only
  split
  · split
    · exact emit_undotted hs (.string _) trivial _
    · exact fault_undotted hs _ _
  · exact fault_undotted hs _ _

/-- A word ends before a dot. -/
theorem readName_undotted : Undotted (readName s).state.tokens := by
  unfold readName
  extract_lets word after quotes text
  split
  · exact readString_undotted hs _
  split
  · refine emit_undotted hs (.name text) (fun hdot => ?_) _
    rw [String.toList_ofList] at hdot
    have hchar : isNameChar '.' = true :=
      List.all_eq_true.mp List.all_takeWhile _ hdot
    exact absurd hchar (by decide)
  · exact fault_undotted hs _ _

theorem readNumber_undotted : Undotted (readNumber s).state.tokens := by
  unfold readNumber
  split
  · exact emit_undotted hs (.number _) trivial _
  · exact fault_undotted hs _ _

theorem readSymbol_undotted (c : Char) :
    Undotted (readSymbol s c).state.tokens := by
  unfold readSymbol
  split
  · exact emit_undotted hs (.symbol _) trivial _
  extract_lets token
  split
  · split
    · exact fault_undotted hs _ _
    · exact undotted_cons trivial hs
  split
  · split
    · split
      · exact undotted_cons trivial hs
      · exact fault_undotted hs _ _
    · exact fault_undotted hs _ _
  split
  · exact emit_undotted hs token trivial _
  · exact fault_undotted hs _ _

theorem finish_undotted : Undotted (finish s).state.tokens := by
  unfold finish
  split
  · exact insert_undotted hs .unread trivial _
  · exact insert_undotted hs .finish trivial _

theorem step_undotted : Undotted (step s).state.tokens := by
  unfold step
  split
  · exact openRow_undotted hs
  split
  · exact finish_undotted hs
  split
  · exact hs
  split
  · exact hs
  split
  · extract_lets moved
    split
    · exact emit_undotted hs .newline trivial _
    · exact hs
  split
  · split
    · exact hs
    · exact strayBackslash_undotted hs _
  split
  · exact readString_undotted hs _
  split
  · exact readName_undotted hs
  split
  · exact readNumber_undotted hs
  · exact readSymbol_undotted hs _

theorem run_undotted (fuel : Nat) : Undotted (run s fuel).tokens := by
  have hreverse : ∀ {s : State}, Undotted s.tokens →
      Undotted s.tokens.reverse :=
    fun h t ht => h t (List.mem_reverse.mp ht)
  induction fuel generalizing s with
  | zero => exact hreverse hs
  | succ fuel ih =>
      have hstep := step_undotted hs
      rw [run]
      split
      · next hstop => exact hreverse (by rwa [hstop] at hstep)
      · next hmore => exact ih (by rwa [hmore] at hstep)

end

/-- No name in a text holds a dot. -/
theorem tokens_undotted (start : Position) (text : List Char) :
    Undotted (tokens start text).tokens :=
  run_undotted (fun _ ht => absurd ht List.not_mem_nil) _

end Lexer

end Syntax

end BridgeBindings
