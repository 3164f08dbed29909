import BridgeBindings.Comment.Block
import BridgeBindings.Comment.Scan
import Mathlib.Data.List.TakeWhile

/-!
# The rows on which comments stand

Reading a text for comments is a fold over its rows, and `stateAt` names the
state in which a row is read. A comment that is found has the number of the row
that gave it (`found_at`), so what is known of one row is known of the comment:
it begins with a mark (`readRow_found`), and where the row itself begins with a
mark while no string is open, the comment is all that the row holds
(`readRow_fills`). An open string is the one way for a mark to be no comment.

Rows and lines split the same text, a row at line feeds only. The two splits run
in step as far as no other line end stands in the rows (`linesFrom_eq`); behind
one, the line of a number and the row of that number are different texts, and
nothing is said here.
-/

namespace BridgeBindings

open Text

namespace Comment

/-! ## Rows -/

/-- The state in which the row of this index is read, unless reading has
ended before. -/
def stateAt (s : Scan) : List (List Char) → Nat → Option Scan
  | _, 0 => some s
  | [], _ + 1 => none
  | row :: rows, i + 1 =>
    match readRow s row with
    | .error _ => none
    | .ok (s, _) => stateAt s rows i

/-- A row without the line feed that ends it. -/
def bare (row : List Char) : List Char :=
  if row.getLast? = some '\n' then row.dropLast else row

/-- A row as `rows` gives it: a line feed stands nowhere but at its end. -/
structure IsRow (row : List Char) : Prop where
  clean : '\n' ∉ bare row
  ended : row = bare row ∨ row = bare row ++ ['\n']

theorem bare_snoc (row : List Char) : bare (row ++ ['\n']) = row := by
  simp [bare]

theorem bare_of_not_mem {row : List Char} (h : '\n' ∉ row) :
    bare row = row := by
  unfold bare
  rw [if_neg fun hlast => h (List.mem_of_getLast? hlast)]

theorem isRow_of_mem {cs row : List Char} : ∀ {line : List Char}, '\n' ∉ line →
    row ∈ rowsFrom cs line → IsRow row := by
  induction cs with
  | nil =>
    intro line hline hrow
    cases line with
    | nil => simp [rowsFrom] at hrow
    | cons c line =>
      obtain rfl : row = (c :: line).reverse := by simpa [rowsFrom] using hrow
      have hclean : '\n' ∉ (c :: line).reverse := by rwa [List.mem_reverse]
      exact ⟨by rwa [bare_of_not_mem hclean],
        .inl (bare_of_not_mem hclean).symm⟩
  | cons c cs ih =>
    intro line hline hrow
    by_cases hc : c = '\n'
    · subst hc
      rcases List.mem_cons.mp (by simpa only [rowsFrom, if_true] using hrow)
        with rfl | hrow
      · rw [List.reverse_cons]
        exact ⟨by simpa [bare_snoc] using hline, .inr (by rw [bare_snoc])⟩
      · exact ih (by simp) hrow
    · refine ih ?_ (by simpa only [rowsFrom, if_neg hc] using hrow)
      simp only [List.mem_cons, not_or]
      exact ⟨Ne.symm hc, hline⟩

theorem isRow_of_getElem? {text : String} {i : Nat} {row : List Char}
    (h : (rows text)[i]? = some row) : IsRow row :=
  isRow_of_mem (by simp) (List.mem_of_getElem? h)

/-! ## Comments and the rows they stand on -/

/-- A comment stands on the row with its number, and is what reading
that row gives. -/
theorem found_at {rows : List (List Char)} {s : Scan}
    {number row : Nat} {c : String}
    (h : (scanRows s number rows).comments.lookup row = some c) :
    ∃ i cs before after, row = number + i ∧ rows[i]? = some cs ∧
      stateAt s rows i = some before ∧ readRow before cs = .ok
      (after, some c.toList) := by
  induction rows generalizing s number with
  | nil => simp [scanRows] at h
  | cons cs rows ih =>
    unfold scanRows at h
    cases hread : readRow s cs with
    | error ending => simp [hread] at h
    | ok answer =>
      obtain ⟨after, comment⟩ := answer
      simp only [hread] at h
      -- The comments behind the row are those of the reading that goes on in
      -- its state.
      have hlater
          (hl : (scanRows after (number + 1) rows).comments.lookup
            row = some c) :
          ∃ i cs' before after', row = number + i ∧
          (cs :: rows)[i]? = some cs' ∧
            stateAt s (cs :: rows) i = some before ∧
            readRow before cs' = .ok (after', some c.toList) := by
        obtain ⟨i, cs', before, after', hrow, hcs, hstate, hfound⟩ := ih hl
        refine ⟨i + 1, cs', before, after', by
          omega, by simpa using hcs, ?_, hfound⟩
        simpa [stateAt, hread] using hstate
      cases comment with
      | none => exact hlater (by simpa using h)
      | some comment =>
        by_cases hrow : row = number
        · subst hrow
          obtain rfl : String.ofList comment = c := by simpa using h
          exact ⟨0, cs, s, after, rfl, rfl, rfl, by simpa using hread⟩
        · refine hlater ?_
          simpa [List.lookup_cons, beq_eq_false_iff_ne.mpr hrow] using h

theorem stateAt_succ {rows : List (List Char)} {s before after : Scan} {i : Nat}
    {cs : List Char} {found : Option (List Char)} (hcs : rows[i]? = some cs)
    (hstate : stateAt s rows i = some before)
    (hread : readRow before cs = .ok (after, found)) :
    stateAt s rows (i + 1) = some after := by
  induction rows generalizing s i with
  | nil => simp at hcs
  | cons row rows ih =>
    cases i with
    | zero =>
      obtain rfl : row = cs := by simpa using hcs
      obtain rfl : s = before := by simpa [stateAt] using hstate
      simp [stateAt, hread]
    | succ i =>
      rw [stateAt] at hstate ⊢
      cases hrow : readRow s row with
      | error ending => simp [hrow] at hstate
      | ok answer =>
        rw [hrow] at hstate
        exact ih (by simpa using hcs) hstate

/-! ## Marks -/

theorem takeWhile_mark (cs : List Char) :
    ∃ rest, (('#' :: cs).takeWhile fun c => c ≠ '\r' && c ≠ '\n') =
    '#' :: rest :=
  ⟨cs.takeWhile fun c => c ≠ '\r' && c ≠ '\n', by simp⟩

theorem inRow_found {s : Scan} {found : Option (List Char)} {fuel : Nat}
    {cs : List Char} (h : ∀ c ∈ found, c.head? = some '#') :
    ∀ c ∈ (inRow s found fuel cs).2, c.head? = some '#' := by
  fun_induction inRow s found fuel cs with
  | case3 s found fuel cs comment ih =>
    refine ih fun c hc => ?_
    obtain ⟨rest, hrest⟩ := takeWhile_mark cs
    obtain rfl : comment = c := by simpa using hc
    simp [comment, hrest]
  | _ => solve_by_elim

theorem finishRow_found {s : Scan} {row rest c : List Char}
    (h : (finishRow s row rest).2 = some c) : c.head? = some '#' := by
  have hnone : ∀ c ∈ (none : Option (List Char)), c.head? = some '#' := by simp
  exact inRow_found hnone c h

/-- Taking the line end off a comment leaves its mark. -/
theorem trimmed_mark (cs : List Char) :
    (('#' :: cs).reverse.dropWhile fun c => c = '\r' ||
      c = '\n').reverse.head? = some '#' := by
  rw [List.reverse_cons, List.dropWhile_append]
  split <;> simp

theorem trimmed_comment {cs ending : List Char}
    (hcs : ∀ c ∈ cs, c ≠ '\r' ∧ c ≠ '\n')
    (hending : ending = [] ∨ ending = ['\n']) :
    (('#' :: cs ++ ending).reverse.dropWhile fun c => c = '\r' ||
      c = '\n').reverse = '#' :: cs := by
  have hkept : ('#' :: cs).reverse.dropWhile (fun c => c = '\r' || c = '\n') =
      ('#' :: cs).reverse := by
    rw [List.dropWhile_eq_self_iff]
    intro hlength
    rcases List.mem_cons.mp (List.mem_reverse.mp (List.getElem_mem hlength))
      with h | h
    · rw [h]
      decide
    · simpa using hcs _ h
  rw [List.reverse_append, List.dropWhile_append_of_pos, hkept,
    List.reverse_reverse]
  rcases hending with rfl | rfl <;> simp

/-- Where the comment of a row that starts a statement comes from: it stands
alone behind the indentation, or is found in what follows that. -/
theorem statementRow_cases {s after : Scan} {row c : List Char}
    (h : statementRow s row = .ok (after, some c)) :
    (∃ cs, (indentation 0 row).2 = '#' :: cs ∧
      c = (('#' :: cs).reverse.dropWhile fun c => c = '\r' ||
        c = '\n').reverse) ∨
    ∃ inner, (finishRow inner row (indentation 0 row).2).2 = some c := by
  unfold statementRow at h
  generalize indentation 0 row = start at h ⊢
  obtain ⟨width, rest⟩ := start
  cases rest with
  | nil => simp at h
  | cons d rest =>
    dsimp only at h ⊢
    split_ifs at h with hmark hend
    · subst hmark
      cases h
      exact .inl ⟨rest, rfl, rfl⟩
    · cases h
    · split at h
      · exact .inr ⟨_, congrArg Prod.snd (Except.ok.inj h)⟩
      · cases h

theorem statementRow_found {s after : Scan} {row c : List Char}
    (h : statementRow s row = .ok (after, some c)) : c.head? = some '#' := by
  rcases statementRow_cases h with ⟨cs, -, rfl⟩ | ⟨inner, hfound⟩
  · exact trimmed_mark cs
  · exact finishRow_found hfound

/-- A comment begins with a mark. -/
theorem readRow_found {s after : Scan} {row c : List Char}
    (h : readRow s row = .ok (after, some c)) : c.head? = some '#' := by
  unfold readRow at h
  cases hstring : s.string with
  | some o =>
    simp only [hstring] at h
    split at h
    · exact finishRow_found (congrArg Prod.snd (Except.ok.inj h))
    · split_ifs at h <;> simp at h
  | none =>
    simp only [hstring] at h
    split_ifs at h
    · exact statementRow_found h
    · exact finishRow_found (congrArg Prod.snd (Except.ok.inj h))

/-! ## Rows that begin with a mark -/

/-- What a row holds, without the white space before it and the line
feed behind it. -/
def content (row : List Char) : List Char := (bare row).dropWhile isBlank

theorem inRow_nil (s : Scan) (found : Option (List Char)) (fuel : Nat) :
    inRow s found fuel [] = (s, found) := by
  cases fuel <;> rfl

theorem inRow_blank {b : Char} (hb : isBlank b = true) (s : Scan)
    (found : Option (List Char)) (fuel : Nat) (cs : List Char) :
    inRow s found (fuel + 1) (b :: cs) = inRow s found fuel cs := by
  have hne : ∀ c, isBlank c = false → b ≠ c := by
    rintro c hc rfl
    rw [hb] at hc
    cases hc
  simp [inRow, hne '#' rfl, hne '\\' rfl, hne '\'' rfl, hne '"' rfl,
    hne '(' rfl, hne '[' rfl, hne '{' rfl, hne ')' rfl, hne ']' rfl,
    hne '\x7d' rfl]

theorem inRow_blanks {blanks : List Char}
    (hb : ∀ b ∈ blanks, isBlank b = true) (s : Scan)
    (found : Option (List Char)) (fuel : Nat) (cs : List Char) :
    inRow s found (blanks.length + fuel) (blanks ++ cs) =
    inRow s found fuel cs := by
  induction blanks with
  | nil => simp
  | cons b blanks ih =>
    rw [List.length_cons, show blanks.length + 1 + fuel = blanks.length +
      fuel + 1 by
        omega, List.cons_append, inRow_blank (hb b List.mem_cons_self)]
    exact ih fun b' hb' => hb b' (List.mem_cons_of_mem _ hb')

/-- A comment reaches to the end of its row. -/
theorem inRow_mark {cs ending : List Char} (hcs : ∀ c ∈ cs, c ≠ '\r' ∧ c ≠ '\n')
    (hending : ending = [] ∨ ending = ['\n']) (s : Scan)
    (found : Option (List Char)) (fuel : Nat) :
    (inRow s found (fuel + 1) ('#' :: cs ++ ending)).2 = some ('#' :: cs) := by
  have htake : (('#' :: cs ++ ending).takeWhile fun c => c ≠ '\r' && c ≠ '\n') =
      '#' :: cs := by
    rw [List.takeWhile_append_of_pos (by simpa using hcs)]
    rcases hending with rfl | rfl <;> simp
  rw [List.cons_append] at htake ⊢
  unfold inRow
  rw [if_pos rfl, htake]
  dsimp only
  rw [← List.cons_append, List.drop_left]
  rcases hending with rfl | rfl
  · rw [inRow_nil]
  · cases fuel with
    | zero => rfl
    | succ fuel => rw [inRow_blank rfl, inRow_nil]

theorem finishRow_fills {blanks cs ending row : List Char}
    (hb : ∀ b ∈ blanks, isBlank b = true) (hcs : ∀ c ∈ cs, c ≠ '\r' ∧ c ≠ '\n')
    (hending : ending = [] ∨ ending = ['\n']) (s : Scan)
    (hrow : (blanks ++ ('#' :: cs ++ ending)).length ≤ row.length) :
    (finishRow s row (blanks ++ ('#' :: cs ++ ending))).2 =
    some ('#' :: cs) := by
  have hfuel : ∃ fuel, row.length + 1 = blanks.length + (fuel + 1) := by
    simp only [List.length_append] at hrow
    exact ⟨row.length - blanks.length, by omega⟩
  obtain ⟨fuel, hfuel⟩ := hfuel
  rw [finishRow, hfuel, inRow_blanks hb]
  exact inRow_mark hcs hending s none fuel

theorem indentation_blanks (width : Nat) (row : List Char) :
    ∃ blanks, (∀ b ∈ blanks, isBlank b = true) ∧
    row = blanks ++ (indentation width row).2 := by
  have hcons {c : Char} {cs rest : List Char} (hc : isBlank c = true) :
      (∃ blanks, (∀ b ∈ blanks, isBlank b = true) ∧ cs = blanks ++ rest) →
        ∃ blanks, (∀ b ∈ blanks, isBlank b = true) ∧
        c :: cs = blanks ++ rest := by
    rintro ⟨blanks, hb, rfl⟩
    exact ⟨c :: blanks, List.forall_mem_cons.mpr ⟨hc, hb⟩, rfl⟩
  fun_induction indentation width row with
  | case1 width cs ih | case2 width cs ih | case3 width cs ih =>
      exact hcons (by decide) ih
  | case4 width cs => exact ⟨[], by simp, rfl⟩

/-- A shorter stretch of white space before a mark leaves white space
and the mark. -/
theorem blanks_before_mark {blanks blanks' rest cs : List Char}
    (hb : ∀ b ∈ blanks, isBlank b = true)
    (h : blanks' ++ '#' :: cs = blanks ++ rest) :
    ∃ between, blanks' = blanks ++ between ∧ rest = between ++ '#' :: cs := by
  rcases List.append_eq_append_iff.mp h with ⟨m, hm, hrest⟩ |
    ⟨between, hm, hrest⟩
  · cases m with
    | nil => exact ⟨[], by simpa using hm.symm, by simpa using hrest.symm⟩
    | cons d m =>
      obtain rfl : '#' = d := (List.cons.inj hrest).1
      exact absurd (hb '#' (by simp [hm])) (by decide)
  · exact ⟨between, hm, hrest⟩

/-- A row that begins with a mark, taken apart. -/
structure Marked (row blanks cs ending : List Char) : Prop where
  eq : row = blanks ++ ('#' :: cs ++ ending)
  blank : ∀ b ∈ blanks, isBlank b = true
  holds : content row = '#' :: cs
  clean : ∀ c ∈ cs, c ≠ '\r' ∧ c ≠ '\n'
  ending : ending = [] ∨ ending = ['\n']

theorem marked_of_head {row : List Char} (hrow : IsRow row)
    (hreturn : '\r' ∉ row) (h : (content row).head? = some '#') :
    ∃ blanks cs ending, Marked row blanks cs ending := by
  obtain ⟨cs, hcs⟩ : ∃ cs, content row = '#' :: cs :=
    List.head?_eq_some_iff.mp h
  have hbare : bare row = (bare row).takeWhile isBlank ++ '#' :: cs := by
    rw [← hcs, content, List.takeWhile_append_dropWhile]
  obtain ⟨ending, hending, heq⟩ : ∃ ending, (ending = [] ∨ ending = ['\n']) ∧
      row = bare row ++ ending := by
    rcases hrow.ended with heq | heq
    · exact ⟨[], .inl rfl, by simpa using heq⟩
    · exact ⟨['\n'], .inr rfl, heq⟩
  refine ⟨(bare row).takeWhile isBlank, cs, ending, ?_, fun b hb =>
    List.mem_takeWhile_imp hb, hcs, fun c hc => ⟨?_, ?_⟩, hending⟩
  · rw [← List.append_assoc, ← hbare]
    exact heq
  · rintro rfl
    refine hreturn ?_
    rw [heq, hbare]
    simp [hc]
  · rintro rfl
    refine hrow.clean ?_
    rw [hbare]
    simp [hc]

/-- The comment of a row that begins with a mark, wherever the white space
before it is cut. -/
theorem Marked.finishRow_fills
    {row blanks cs ending between rest c : List Char} {s : Scan}
    (h : Marked row blanks cs ending)
    (hbetween : ∀ b ∈ between, isBlank b = true)
    (hrest : rest = between ++ ('#' :: cs ++ ending))
    (hle : rest.length ≤ row.length)
    (hfound : (finishRow s row rest).2 = some c) : content row = c := by
  subst hrest
  rw [Comment.finishRow_fills hbetween h.clean h.ending s hle] at hfound
  rw [h.holds]
  exact Option.some.inj hfound

theorem Marked.statementRow_fills {row blanks cs ending c : List Char}
    {s after : Scan} (h : Marked row blanks cs ending)
    (hfound : statementRow s row = .ok (after, some c)) : content row = c := by
  obtain ⟨skipped, hskipped, hrow⟩ := indentation_blanks 0 row
  obtain ⟨between, hblanks, hrest⟩ :=
    blanks_before_mark hskipped (h.eq.symm.trans hrow)
  have hbetween : ∀ b ∈ between, isBlank b = true := fun b hb =>
    h.blank b (by rw [hblanks]; exact List.mem_append_right _ hb)
  rcases statementRow_cases hfound with ⟨cs', hcs', rfl⟩ | ⟨inner, hinner⟩
  · obtain rfl : between = [] := by
      cases between with
      | nil => rfl
      | cons b between =>
        obtain rfl : b = '#' := (List.cons.inj (hrest.symm.trans hcs')).1
        exact absurd (hbetween '#' List.mem_cons_self) (by decide)
    rw [← hcs', hrest, h.holds]
    exact (trimmed_comment h.clean h.ending).symm
  · have hle : (indentation 0 row).2.length ≤ row.length := by
      have hlength := congrArg List.length hrow
      rw [List.length_append] at hlength
      omega
    exact h.finishRow_fills hbetween hrest hle hinner

/-- While no string is open, the comment of a row that begins with a mark is
all it holds. -/
theorem readRow_fills {s after : Scan} {row c : List Char} (hrow : IsRow row)
    (hreturn : '\r' ∉ row) (hstring : s.string = none)
    (hmark : (content row).head? = some '#')
    (hfound : readRow s row = .ok (after, some c)) : content row = c := by
  obtain ⟨blanks, cs, ending, h⟩ := marked_of_head hrow hreturn hmark
  unfold readRow at hfound
  simp only [hstring] at hfound
  split_ifs at hfound
  · exact h.statementRow_fills hfound
  · exact h.finishRow_fills h.blank h.eq (Nat.le_refl _)
      (congrArg Prod.snd (Except.ok.inj hfound))

/-! ## Rows and lines -/

/-- The first row that is read goes on from what stands on it already. -/
theorem rowsFrom_head {line : List Char} (hline : line ≠ []) (cs : List Char) :
    ∃ more later, rowsFrom cs line = (line.reverse ++ more) :: later := by
  induction cs generalizing line with
  | nil =>
    cases line with
    | nil => exact absurd rfl hline
    | cons c line => exact ⟨[], [], by simp [rowsFrom]⟩
  | cons c cs ih =>
    by_cases hc : c = '\n'
    · exact ⟨[c], rowsFrom cs [], by simp [rowsFrom, hc]⟩
    · obtain ⟨more, later, h⟩ := ih (List.cons_ne_nil c line)
      refine ⟨c :: more, later, ?_⟩
      rw [rowsFrom, if_neg hc, h]
      simp

theorem linesFrom_cons {c : Char} (hc : c ≠ '\r') (cs line : List Char) :
    linesFrom id (c :: cs) line =
      if endsLine c then line.reverse :: linesFrom id cs []
      else linesFrom id cs (c :: line) := by
  cases cs with
  | nil =>
    rw [linesFrom, linesFrom, linesFrom, id]
    exact List.cons_ne_nil c line
  | cons d cs => rw [linesFrom, if_neg (fun h => hc h.1), id]

/-- Where no line of the text ends within the rows up to one, the line of the
same index is that row. -/
theorem linesFrom_eq {cs : List Char} {k : Nat} :
    ∀ {line : List Char}, '\n' ∉ line →
    (∀ row ∈ (rowsFrom cs line).take (k + 1),
      ∀ c ∈ row, endsLine c = true → c = '\n') →
    (linesFrom id cs line)[k]? = (rowsFrom cs line)[k]?.map bare := by
  -- row by row the two ways of cutting agree as long as no other character than
  -- the line feed ends a line; behind the rows in question it does not matter
  induction cs generalizing k with
  | nil =>
    intro line hline hclean
    cases line with
    | nil => simp [linesFrom, rowsFrom]
    | cons c line =>
      have hbare : bare (c :: line).reverse = (c :: line).reverse :=
        bare_of_not_mem (by rwa [List.mem_reverse])
      cases k with
      | zero => simpa [linesFrom, rowsFrom] using hbare.symm
      | succ k => simp [linesFrom, rowsFrom]
  | cons c cs ih =>
    intro line hline hclean
    by_cases hc : c = '\n'
    · subst hc
      rw [rowsFrom, if_pos rfl] at hclean ⊢
      rw [linesFrom_cons (by decide), if_pos (by decide)]
      cases k with
      | zero => simp [bare_snoc]
      | succ k =>
        simp only [List.getElem?_cons_succ]
        refine ih (by simp) fun row hrow => hclean row ?_
        rw [List.take_succ_cons]
        exact List.mem_cons_of_mem _ hrow
    · have hends : endsLine c = false := by
        by_contra hends
        obtain ⟨more, later, h⟩ := rowsFrom_head (List.cons_ne_nil c line) cs
        have hrow : (c :: line).reverse ++ more ∈
            (rowsFrom (c :: cs) line).take (k + 1) := by
          rw [rowsFrom, if_neg hc, h]
          simp
        exact hc (hclean _ hrow c (by simp) (by simpa using hends))
      have hreturn : c ≠ '\r' := by
        rintro rfl
        cases hends
      rw [linesFrom_cons hreturn, hends]
      rw [rowsFrom, if_neg hc] at hclean ⊢
      exact ih (by simp [Ne.symm hc, hline]) hclean

theorem trimEndChars_head {c : Char} (hc : isBlank c = false) (cs : List Char) :
    (trimEndChars (c :: cs)).head? = some c := by
  simp [trimEndChars, hc]

/-- Whether a line starts with a mark is settled by its first character that
is not white. -/
theorem startsWithMark_iff (line : String) :
    startsWithMark line = true ↔
    (line.toList.dropWhile isBlank).head? = some '#' := by
  unfold startsWithMark trim
  rw [decide_eq_true_iff, String.toList_ofList]
  cases h : line.toList.dropWhile isBlank with
  | nil => rfl
  | cons c cs =>
    have hc : isBlank c = false := by
      simpa [h] using List.head?_dropWhile_not isBlank line.toList
    rw [trimEndChars_head hc, List.head?_cons]

end Comment

end BridgeBindings
