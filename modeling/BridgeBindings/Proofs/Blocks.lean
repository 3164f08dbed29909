import BridgeBindings.Proofs.Rows
import BridgeBindings.Proofs.Samples
import BridgeBindings.Scope

/-!
# The comments directly above a declaration

A comment is known by the physical row it stands on, a row being what a line
feed ends; whether a row may belong to a block is judged by the text line of the
same number, and lines end at more characters than rows do. The block that
`blockAbove` finds is therefore compared here with the longest run of physical
rows that hold nothing but white space and a comment.

Both blocks are runs of one shape, the longest above a row of a predicate on
rows (`LongestRun`), and such a run is unique. So the two are the same as soon
as the predicates agree on the rows of the run and on the one above it, and
this is also necessary (`same_iff`). The rest is about when they agree. Where
no other line end stands above, only one thing is left that tells them apart:
the last row of a string that begins with a mark and has a comment behind the
end of the string.
-/

namespace BridgeBindings

open Text

/-! ## Longest runs -/

/-- The rows above row `n`, down from `first`, are those of which `P` holds
without a gap, and `block` is what `P` says of them. -/
structure LongestRun (P : Nat → String → Prop) (n first : Nat)
    (block : List String) : Prop where
  spans : first + block.length = n
  holds : ∀ i (h : i < block.length), P (first + i) block[i]
  longest : ∀ c, ¬P (first - 1) c

namespace LongestRun

variable {P Q : Nat → String → Prop} {n first : Nat} {block : List String}

theorem nil (h : ∀ c, ¬P n c) : LongestRun P (n + 1) (n + 1) [] :=
  ⟨rfl, fun _ hi => absurd hi (Nat.not_lt_zero _), by simpa using h⟩

theorem zero (h : ∀ c, ¬P 0 c) : LongestRun P 0 0 [] :=
  ⟨rfl, fun _ hi => absurd hi (Nat.not_lt_zero _), h⟩

theorem snoc {c : String} (hrun : LongestRun P n first block) (hc : P n c) :
    LongestRun P (n + 1) first (block ++ [c]) where
  spans := by
    have := hrun.spans
    simp only [List.length_append, List.length_singleton]
    omega
  holds i hi := by
    rw [List.getElem_append]
    split
    · exact hrun.holds i ‹_›
    · have hlast : first + i = n := by
        have := hrun.spans
        simp only [List.length_append, List.length_singleton] at hi
        omega
      simpa [hlast] using hc
  longest := hrun.longest

theorem exists_above (P : Nat → String → Prop) (hzero : ∀ c, ¬P 0 c) (n : Nat) :
    ∃ first block, LongestRun P n first block := by
  induction n with
  | zero => exact ⟨0, [], .zero hzero⟩
  | succ n ih =>
    by_cases hn : ∃ c, P n c
    · obtain ⟨c, hc⟩ := hn
      obtain ⟨first, block, hrun⟩ := ih
      exact ⟨first, block ++ [c], hrun.snoc hc⟩
    · exact ⟨n + 1, [], .nil (not_exists.mp hn)⟩

theorem row_holds (hrun : LongestRun P n first block) {r : Nat}
    (hr : first ≤ r) (hn : r < n) : ∃ c, P r c := by
  have hspans := hrun.spans
  have hrow := hrun.holds (r - first) (by omega)
  rw [show first + (r - first) = r by omega] at hrow
  exact ⟨_, hrow⟩

/-- Where a run above row `n` begins later than another, the row above it is
in the other. -/
theorem first_le {first' : Nat} {block' : List String}
    (hrun : LongestRun P n first block) (hrun' : LongestRun P n first' block') :
    first ≤ first' := by
  by_contra hlt
  have hspans := hrun.spans
  obtain ⟨c, hc⟩ := hrun'.row_holds (r := first - 1) (by omega) (by omega)
  exact hrun.longest c hc

/-- A run is settled by the row it ends above, if `P` says one
thing of a row. -/
theorem unique {first' : Nat} {block' : List String}
    (hP : ∀ r c d, P r c → P r d → c = d) (hrun : LongestRun P n first block)
    (hrun' : LongestRun P n first' block') :
    first = first' ∧ block = block' := by
  obtain rfl : first = first' :=
    Nat.le_antisymm (hrun.first_le hrun') (hrun'.first_le hrun)
  have hlength : block.length = block'.length := by
    have hspans := hrun.spans
    have hspans' := hrun'.spans
    omega
  exact ⟨rfl, List.ext_getElem hlength fun i h h' =>
    hP _ _ _ (hrun.holds i h) (hrun'.holds i h')⟩

/-- Longest runs of two predicates are of the same rows exactly where the second
predicate holds along the first run and stops above it. -/
theorem same_iff {first' : Nat} {block' : List String}
    (hQ : ∀ r c d, Q r c → Q r d → c = d) (hrun : LongestRun P n first block)
    (hrun' : LongestRun Q n first' block') : block' = block ↔
      (∀ i (h : i < block.length), Q (first + i) block[i]) ∧
      ∀ c, ¬Q (first - 1) c := by
  constructor
  · rintro rfl
    obtain rfl : first = first' := by
      have hspans := hrun.spans
      have hspans' := hrun'.spans
      omega
    exact ⟨hrun'.holds, hrun'.longest⟩
  · rintro ⟨hholds, hlongest⟩
    have hrunQ : LongestRun Q n first block := ⟨hrun.spans, hholds, hlongest⟩
    exact (unique hQ hrun' hrunQ).2

end LongestRun

/-! ## The block that is found -/

namespace Annotated

open Comment

/-- The row counts as one of a block: the line of its number starts with a mark,
and the row has this comment. -/
structure Takes (a : Annotated) (row : Nat) (c : String) : Prop where
  marked : startsWithMark (a.line row) = true
  found : a.comment? row = some c

theorem Takes.functional {a : Annotated} (row : Nat) (c d : String)
    (hc : a.Takes row c) (hd : a.Takes row d) : c = d :=
  Option.some.inj (hc.found.symm.trans hd.found)

/-- What `blockAbove` finds is the longest run of rows that count. -/
theorem blockAbove_run {a : Annotated} (hzero : a.comment? 0 = none) (n : Nat) :
    ∃ first, LongestRun a.Takes n first (a.blockAbove n) := by
  have hstart : ∀ c, ¬a.Takes 0 c := fun c hc => by
    rw [hc.found] at hzero
    cases hzero
  induction n with
  | zero => exact ⟨0, .zero hstart⟩
  | succ row ih =>
    unfold blockAbove
    split_ifs with hrow hmark
    · subst hrow
      exact ⟨1, .nil hstart⟩
    · cases hfound : a.comment? row with
      | some c =>
        obtain ⟨first, hrun⟩ := ih
        exact ⟨first, hrun.snoc ⟨hmark, hfound⟩⟩
      | none =>
        refine ⟨row + 1, .nil fun c hc => ?_⟩
        rw [hc.found] at hfound
        cases hfound
    · exact ⟨row + 1, .nil fun c hc => hmark hc.marked⟩

end Annotated

/-! ## The block and the rows above -/

/-- The row holds white space and this comment, and nothing else. -/
structure HoldsOnly (text : String) (row : Nat) (c : String) : Prop where
  found : (Comment.scan text).comments.lookup row = some c
  fills : ((Comment.rows text)[row - 1]?).map Comment.content = some c.toList

theorem HoldsOnly.functional {text : String} (row : Nat) (c d : String)
    (hc : HoldsOnly text row c) (hd : HoldsOnly text row d) : c = d :=
  Option.some.inj (hc.found.symm.trans hd.found)

/-- What a row holds besides white space, if that is a comment and
nothing else. -/
def onlyComment? (text : String) (row : Nat) : Option String :=
  ((Comment.scan text).comments.lookup row).filter fun c =>
    ((Comment.rows text)[row - 1]?).map Comment.content = some c.toList

theorem holdsOnly_iff {text : String} {row : Nat} {c : String} :
    HoldsOnly text row c ↔ onlyComment? text row = some c := by
  rw [onlyComment?, Option.filter_eq_some_iff, decide_eq_true_iff]
  exact ⟨fun h => ⟨h.found, h.fills⟩, fun h => ⟨h.1, h.2⟩⟩

theorem longestRun_holdsOnly_iff {text : String} {n first : Nat}
    {block : List String} : LongestRun (HoldsOnly text) n first block ↔
    first + block.length = n ∧
      (List.range block.length).map (fun i => onlyComment? text (first + i)) =
      block.map some ∧ onlyComment? text (first - 1) = none := by
  have hholds :
      (List.range block.length).map (fun i => onlyComment? text (first + i)) =
      block.map some ↔ ∀ i (h : i < block.length), HoldsOnly text
      (first + i) block[i] := by
    simp only [holdsOnly_iff]
    constructor
    · intro h i hi
      have hrow := congrArg (·[i]?) h
      simpa [hi] using hrow
    · intro h
      exact List.ext_getElem (by simp) fun i hi hi' =>
        by simpa using h i (by simpa using hi)
  have hlongest : onlyComment? text (first - 1) = none ↔
      ∀ c, ¬HoldsOnly text (first - 1) c := by
    simp only [holdsOnly_iff, Option.eq_none_iff_forall_ne_some, ne_eq]
  rw [hholds, hlongest]
  exact ⟨fun h => ⟨h.spans, h.holds, h.longest⟩, fun h => ⟨h.1, h.2.1, h.2.2⟩⟩

instance (text : String) (n first : Nat) (block : List String) :
    Decidable (LongestRun (HoldsOnly text) n first block) :=
  decidable_of_iff _ longestRun_holdsOnly_iff.symm

/-- The row begins inside a string and, behind white space, with a mark; it has
a comment, which stands behind the end of that string. -/
structure Disguised (text : String) (row : Nat) : Prop where
  inside : ∃ s, Comment.stateAt {} (Comment.rows text) (row - 1) = some s ∧
    s.string.isSome
  marked : ∃ cs, ((Comment.rows text)[row - 1]?).map Comment.content =
      some ('#' :: cs)
  found : (Comment.scan text).comments.lookup row ≠ none

/-- Only line feeds end lines in the rows above row `n`: lines and rows
count alike there. -/
def InStep (text : String) (n : Nat) : Prop :=
  ∀ row ∈ (Comment.rows text).take (n - 1),
    ∀ c ∈ row, endsLine c = true → c = '\n'

theorem inStep_iff {text : String} {n : Nat} : InStep text n ↔
    (((Comment.rows text).take (n - 1)).all fun row =>
      row.all fun c => !endsLine c || c = '\n') = true := by
  simp only [InStep, List.all_eq_true, Bool.or_eq_true, Bool.not_eq_true',
    decide_eq_true_iff, ← Bool.not_eq_true, imp_iff_not_or]

instance (text : String) (n : Nat) : Decidable (InStep text n) :=
  decidable_of_iff _ inStep_iff.symm

/-- The rows with numbers up to this one are read before reading ends. -/
def ReadUpTo (text : String) (row : Nat) : Prop :=
  Comment.stateAt {} (Comment.rows text) row ≠ none

namespace Annotated

open Comment

/-- The lines and the comments of a text. -/
def ofText (text : String) : Annotated :=
  ⟨Text.lines text, (scan text).comments⟩

variable {text : String} {n first row : Nat} {block : List String}

theorem comment?_ofText_zero (text : String) :
    (ofText text).comment? 0 = none := by
  cases h : (ofText text).comment? 0 with
  | none => rfl
  | some c =>
    obtain ⟨i, _, _, _, hzero, -⟩ := found_at h
    omega

/-- Below the point where reading ends there are no comments, and no
block is found. -/
theorem blockAbove_unread (h : ¬ReadUpTo text (n - 1)) :
    (ofText text).blockAbove n = [] := by
  have hnone : (ofText text).comment? (n - 1) = none := by
    cases hfound : (ofText text).comment? (n - 1) with
    | none => rfl
    | some c =>
      obtain ⟨i, cs, before, after, hrow, hcs, hstate, hread⟩ := found_at hfound
      refine absurd (fun hunread => ?_) h
      rw [hrow, Nat.add_comm, stateAt_succ hcs hstate hread] at hunread
      cases hunread
  cases n with
  | zero => rfl
  | succ row =>
    rw [Nat.add_sub_cancel] at hnone
    unfold blockAbove
    rw [hnone]
    split_ifs <;> rfl

/-- The block is the run of rows that hold only comments if and only if the line
of each of their numbers starts with a mark, and that of the row above them does
not or the row has no comment. -/
theorem blockAbove_eq_iff (hrun : LongestRun (HoldsOnly text) n first block) :
    (ofText text).blockAbove n = block ↔
      (∀ r, first ≤ r → r < n → startsWithMark ((ofText text).line r) = true) ∧
        ¬(startsWithMark ((ofText text).line (first - 1)) = true ∧
          (ofText text).comment? (first - 1) ≠ none) := by
  obtain ⟨first', hblock⟩ := blockAbove_run (comment?_ofText_zero text) n
  rw [LongestRun.same_iff Takes.functional hrun hblock]
  refine and_congr
    ⟨fun h r hr hn => ?_, fun h i hi => ⟨?_, (hrun.holds i hi).found⟩⟩ ?_
  · have hspans := hrun.spans
    have hmarked := (h (r - first) (by omega)).marked
    rwa [show first + (r - first) = r by omega] at hmarked
  · have hspans := hrun.spans
    exact h (first + i) (by omega) (by omega)
  · constructor
    · rintro h ⟨hmarked, hfound⟩
      obtain ⟨c, hc⟩ := Option.ne_none_iff_exists'.mp hfound
      exact h c ⟨hmarked, hc⟩
    · intro h c hc
      exact h ⟨hc.marked, by simp [hc.found]⟩

/-- Where lines and rows count alike, a line starts with a mark if
its row does. -/
theorem line_marked_iff (hstep : InStep text n) (hpos : 0 < row)
    (hrow : row < n) : startsWithMark ((ofText text).line row) = true ↔
      ∃ cs, ((rows text)[row - 1]?).map content = some ('#' :: cs) := by
  have hline : (linesFrom id text.toList [])[row - 1]? =
      ((rows text)[row - 1]?).map bare := by
    refine linesFrom_eq (by simp) fun cs hcs => hstep cs ?_
    exact (List.take_sublist_take_left (by omega)).subset hcs
  rw [startsWithMark_iff, line, ofText, Text.lines, List.getElem?_map, hline]
  cases (rows text)[row - 1]? with
  | none => simp
  | some cs => simp [content, List.head?_eq_some_iff]

/-- A row with a comment that begins with a mark and yet does not hold only that
comment begins inside a string. -/
theorem disguised_of_marked
    (hreturn : ∀ cs, (rows text)[row - 1]? = some cs → '\r' ∉ cs)
    (hmarked : ∃ cs, ((rows text)[row - 1]?).map content = some ('#' :: cs))
    (hfound : (ofText text).comment? row ≠ none)
    (honly : ∀ c, ¬HoldsOnly text row c) : Disguised text row := by
  obtain ⟨c, hc⟩ := Option.ne_none_iff_exists'.mp hfound
  obtain ⟨i, cs, before, after, hrow, hcs, hstate, hread⟩ := found_at hc
  obtain rfl : i = row - 1 := by omega
  refine ⟨⟨before, hstate, ?_⟩, hmarked, hfound⟩
  by_contra hstring
  obtain ⟨rest, hrest⟩ := hmarked
  have hhead : (content cs).head? = some '#' := by
    rw [hcs, Option.map_some] at hrest
    rw [Option.some.inj hrest, List.head?_cons]
  have hfills := readRow_fills (isRow_of_getElem? hcs) (hreturn cs hcs)
    (by simpa using hstring) hhead hread
  exact honly c ⟨hc, by rw [hcs, Option.map_some, hfills]⟩

/-- Where lines and rows count alike, the block is the run of rows that hold
only comments unless the row above the run only looks like one of them. -/
theorem blockAbove_eq_iff_of_inStep (hstep : InStep text n)
    (hrun : LongestRun (HoldsOnly text) n first block) :
    (ofText text).blockAbove n = block ↔ ¬Disguised text (first - 1) := by
  have hspans := hrun.spans
  have hnumber {r : Nat} (h : (ofText text).comment? r ≠ none) : 0 < r := by
    rcases Nat.eq_zero_or_pos r with rfl | hr
    · exact absurd (comment?_ofText_zero text) h
    · exact hr
  have hmarks : ∀ r, first ≤ r → r < n →
      startsWithMark ((ofText text).line r) = true := by
    intro r hr hn
    obtain ⟨c, hc⟩ := hrun.row_holds hr hn
    obtain ⟨i, cs, before, after, hrow, -, -, hread⟩ := found_at hc.found
    obtain ⟨rest, hrest⟩ := List.head?_eq_some_iff.mp (readRow_found hread)
    rw [line_marked_iff hstep (by omega) hn]
    exact ⟨rest, hrest ▸ hc.fills⟩
  rw [blockAbove_eq_iff hrun, and_iff_right hmarks, not_iff_not]
  constructor
  · rintro ⟨hmarked, hfound⟩
    have hpos := hnumber hfound
    rw [line_marked_iff hstep hpos (by omega)] at hmarked
    refine disguised_of_marked (fun cs hcs hreturn => ?_) hmarked
      hfound hrun.longest
    have habove : ((rows text).take (n - 1))[first - 1 - 1]? = some cs := by
      rw [List.getElem?_take_of_lt (by omega), hcs]
    exact absurd
      (hstep cs (List.mem_of_getElem? habove) '\r' hreturn (by decide))
      (by decide)
  · intro h
    have hpos := hnumber h.found
    exact ⟨(line_marked_iff hstep hpos (by omega)).mpr h.marked, h.found⟩

end Annotated

/-- A source file has the lines and the comments of its text. -/
theorem Source.notes_eq {files : FileTree}
    {root path rootPackage text : String} {s : Source}
    (htext : Source.readText files path = .ok text)
    (hs : Source.read files root path rootPackage = .ok s) :
    s.notes = .ofText text := by
  unfold Source.read at hs
  rw [htext] at hs
  dsimp only [bind, Except.bind] at hs
  split at hs
  · cases hs
  · cases hs
    rfl

/-- The block above a row of a source file, such as the first row of a
declaration, is the longest run above it of rows that hold only comments if and
only if the lines of those numbers start with marks and that of the row above
the run does not, or the row has no comment. Where only line feeds end lines
above, this is so unless the row above the run is the last one of a string,
begins with a mark, and has a comment behind the string. Where reading for
comments ends further up, there is no block. -/
theorem Source.blockAbove_iff {files : FileTree}
    {root path rootPackage text : String} {s : Source}
    (htext : Source.readText files path = .ok text)
    (hs : Source.read files root path rootPackage = .ok s) (n : Nat) :
    ∃ first block, LongestRun (HoldsOnly text) n first block ∧
      (s.notes.blockAbove n = block ↔
        (∀ r, first ≤ r → r < n →
          Comment.startsWithMark (s.notes.line r) = true) ∧
          ¬(Comment.startsWithMark (s.notes.line (first - 1)) = true ∧
            s.notes.comment? (first - 1) ≠ none)) ∧
      (InStep text n →
        (s.notes.blockAbove n = block ↔ ¬Disguised text (first - 1))) ∧
      (¬ReadUpTo text (n - 1) → s.notes.blockAbove n = []) := by
  have hzero : ∀ c, ¬HoldsOnly text 0 c := fun c hc => by
    have hnone := Annotated.comment?_ofText_zero text
    rw [Annotated.comment?, Annotated.ofText, hc.found] at hnone
    cases hnone
  obtain ⟨first, block, hrun⟩ :=
    LongestRun.exists_above (HoldsOnly text) hzero n
  rw [Source.notes_eq htext hs]
  exact ⟨first, block, hrun, Annotated.blockAbove_eq_iff hrun,
    fun hstep => Annotated.blockAbove_eq_iff_of_inStep hstep hrun,
    Annotated.blockAbove_unread⟩

namespace Sample

/-- A file in the root directory. -/
def notedTree (text : String) : FileTree :=
  ⟨.directory [("main.py", .file (Text.encodeUtf8 text))]⟩

/-- The row where the class `A` of a source file begins, decorators included. -/
def noteRow? (s : Source) : Option Nat :=
  ((Scope.ofSource s).classes.get? "A").map fun c =>
    Annotated.firstRow c.pos c.decorators

/-- The file is read, its class `A` begins at this row, and this is the
block found there. -/
structure Noted (text : String) (s : Source) (row : Nat) (block : List String) :
    Prop where
  hasText : Source.readText (notedTree text) "/main.py" = .ok text
  isRead : Source.read (notedTree text) "/" "/main.py" "main" = .ok s
  begins : noteRow? s = some row
  found : s.notes.blockAbove row = block

theorem noted {text : String} {row : Nat} {block : List String}
    (htext : (Source.readText (notedTree text) "/main.py").toOption = some text)
    (hs : (Source.read (notedTree text) "/" "/main.py" "main").toOption.map
      (fun s => (noteRow? s, s.notes.blockAbove row)) =
      some (some row, block)) :
    ∃ s, Noted text s row block := by
  obtain ⟨s, hread, hfound⟩ := Option.map_eq_some_iff.mp hs
  simp only [Prod.mk.injEq] at hfound
  exact ⟨s, ok_of_toOption htext, ok_of_toOption hread, hfound.1, hfound.2⟩

/-- A class documented above its decorator, below an import with a
comment behind it. -/
def decoratedText : String :=
  "import typing  # for final\n# Line one.\n# Line two.\n" ++
    "@typing.final\nclass A:\n    pass\n"

/-- Lines and rows count alike, and the row above the two comments begins
with no mark. -/
theorem decorated_block : ∃ s,
    Source.readText (notedTree decoratedText) "/main.py" = .ok decoratedText ∧
    Source.read (notedTree decoratedText) "/" "/main.py" "main" = .ok s ∧
    noteRow? s = some 4 ∧ InStep decoratedText 4 ∧
    s.notes.blockAbove 4 = ["# Line one.", "# Line two."] := by
  obtain ⟨s, h⟩ : ∃ s, Noted decoratedText s 4 ["# Line one.", "# Line two."] :=
    noted (by decide +kernel) (by decide +kernel)
  have hrun : LongestRun (HoldsOnly decoratedText) 4 2
      ["# Line one.", "# Line two."] := by
    decide +kernel
  have hstep : InStep decoratedText 4 := by
    decide +kernel
  refine ⟨s, h.hasText, h.isRead, h.begins, hstep, ?_⟩
  obtain ⟨first, block, hrun', -, hiff, -⟩ :=
    Source.blockAbove_iff h.hasText h.isRead 4
  obtain ⟨rfl, rfl⟩ := hrun'.unique HoldsOnly.functional hrun
  refine (hiff hstep).mpr fun hdisguised => ?_
  obtain ⟨cs, hcs⟩ := hdisguised.marked
  have hcontent : ((Comment.rows decoratedText)[2 - 1 - 1]?).map
      Comment.content = some "import typing  # for final".toList := by
    decide +kernel
  rw [hcontent] at hcs
  cases hcs

/-- A form feed on a row of its own, above a class with a comment. -/
def driftingText : String := "import os\n\x0c\n# About A.\nclass A:\n    pass\n"

/-- A string that ends on a row that begins with a mark, right above a class. -/
def disguisedText : String :=
  "x = r\"\"\"\n# inside \"\"\" # behind\nclass A:\n    pass\n"

/-- The form feed ends one more line, so the line with the number of the
comment's row is an empty one, and the comment is not found. The comment behind
the string is taken for a block, since its row begins with a mark. -/
theorem blocks_astray :
    (∃ s, Noted driftingText s 4 [] ∧
      LongestRun (HoldsOnly driftingText) 4 3 ["# About A."]) ∧
    ∃ s, Noted disguisedText s 3 ["# behind"] ∧
    LongestRun (HoldsOnly disguisedText) 3 3 [] := by
  constructor
  · obtain ⟨s, h⟩ : ∃ s, Noted driftingText s 4 [] :=
      noted (by decide +kernel) (by decide +kernel)
    exact ⟨s, h, by decide +kernel⟩
  · obtain ⟨s, h⟩ : ∃ s, Noted disguisedText s 3 ["# behind"] :=
      noted (by decide +kernel) (by decide +kernel)
    exact ⟨s, h, by decide +kernel⟩

end Sample

end BridgeBindings
