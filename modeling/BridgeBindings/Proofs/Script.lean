import Mathlib.Data.List.Infix

/-!
# How a script is read

A reader goes through the text of a script one character at a time and gives its
tokens, without the comments. A comment behind `//` lasts to the end of its
line, and what ends a line is one of four characters; a comment behind `/*`
lasts to the first `*/`. Neither begins inside a string. A template is one token
here, whatever stands in it, and a slash that opens no comment is an operator.

The reader's mode is all that a text hands on to the text behind it. So a file
that is written line by line can be read line by line: a line is complete if the
reader is back where it began, and a block of lines that is silent besides can
be left out of the file or put into it wherever a line begins.
-/

namespace BridgeBindings.Script

/-- A line feed, a carriage return, or one of the two separators of Unicode. -/
def endsLine (c : Char) : Bool :=
  c = '\n' || c = '\r' || c = '\u2028' || c = '\u2029'

/-- White space of a script, ends of lines included, and the mark
of byte order. -/
def isBlank (c : Char) : Bool :=
  let n := c.toNat
  endsLine c || n == 9 || n == 11 || n == 12 || n == 32 ||
    n == 0xa0 || n == 0x1680 || (0x2000 ≤ n && n ≤ 0x200a) || n == 0x202f ||
      n == 0x205f || n == 0x3000 || n == 0xfeff

/-- The three marks that open a string. -/
def isQuote (c : Char) : Bool := c = '"' || c = '\'' || c = '`'

/-! ## Words -/

/-- A character that is a token by itself, if no operator begins with it. -/
def isPunctuation (c : Char) : Bool :=
  "\x7b\x7d()[].;,<>+-*/%&|^!~?:=@".toList.contains c

/-- The punctuators of several characters, a longer one before those
it begins with. -/
def operators : List String :=
  [">>>=", "...", "===", "!==", "**=", "<<=", ">>=", ">>>", "&&=", "||=", "??=",
    "=>", "==", "!=", "<=", ">=", "&&", "||", "??", "?.", "++", "--",
    "**", "<<", ">>", "+=", "-=", "*=", "/=", "%=", "&=", "|=", "^="]

/-- How much of a text its first token takes up: the longest punctuator, or as
much as can be one name or one number. -/
def width (c : Char) (cs : List Char) : Nat :=
  if isPunctuation c then
    ((operators.find? fun p => p.toList.isPrefixOf (c :: cs)).map
      String.length).getD 1
  else 1 + (cs.takeWhile fun d => !isPunctuation d ||
    (c.isDigit && d = '.')).length

/-- The tokens of a text without blanks, strings and comments, behind as many
characters as belong to the token before. -/
def cut : Nat → List Char → List (List Char)
  | _, [] => []
  | n + 1, _ :: cs => cut n cs
  | 0, c :: cs =>
    let w := width c cs
    (c :: cs).take w :: cut (w - 1) cs

/-! ## The reader -/

/-- Where the reader is. In code it holds the word that it is in, and behind a
slash it does not know yet whether that belongs to the word. -/
inductive Mode where
  | code (word : List Char)
  | slash (word : List Char)
  | line
  | block
  | star
  | quoted (quote : Char) (word : List Char)
  | escaped (quote : Char) (word : List Char)
  deriving DecidableEq, Repr

/-- A character of code. -/
def readCode (word : List Char) (c : Char) : Mode × List (List Char) :=
  if c = '/' then (.slash word, [])
  else if isQuote c then (.quoted c [c], cut 0 word)
  else if isBlank c then (.code [], cut 0 word)
  else (.code (word ++ [c]), [])

/-- Reads one character and gives the tokens that it ends. A string that is not
closed ends with its line, unless it is a template. -/
def step : Mode → Char → Mode × List (List Char)
  | .code word, c => readCode word c
  | .slash word, c =>
    if c = '/' then (.line, cut 0 word)
    else if c = '*' then (.block, cut 0 word)
    else readCode (word ++ ['/']) c
  | .line, c => (if endsLine c then .code [] else .line, [])
  | .block, c => (if c = '*' then .star else .block, [])
  | .star, c =>
      (if c = '/' then .code [] else if c = '*' then .star else .block, [])
  | .quoted q word, c =>
    if c = '\\' then (.escaped q (word ++ [c]), [])
    else if c = q then (.code [], [word ++ [c]])
    else if (c = '\n' || c = '\r') && q ≠ '`' then (.code [], [word])
    else (.quoted q (word ++ [c]), [])
  | .escaped q word, c => (.quoted q (word ++ [c]), [])

/-- The mode behind a text. -/
def after (m : Mode) (cs : List Char) : Mode :=
  cs.foldl (fun m c => (step m c).1) m

/-- The tokens that end within a text. -/
def ended : Mode → List Char → List (List Char)
  | _, [] => []
  | m, c :: cs => (step m c).2 ++ ended (step m c).1 cs

/-- What the end of the text ends. -/
def last : Mode → List (List Char)
  | .code word => cut 0 word
  | .slash word => cut 0 (word ++ ['/'])
  | .quoted _ word | .escaped _ word => [word]
  | .line | .block | .star => []

/-- The tokens of a script, in order. -/
def tokens (script : String) : List (List Char) :=
  ended (.code []) script.toList ++ last (after (.code []) script.toList)

/-! ## Reading in parts -/

theorem after_append (m : Mode) (cs ds : List Char) :
    after m (cs ++ ds) = after (after m cs) ds := List.foldl_append

theorem ended_append (m : Mode) (cs ds : List Char) :
    ended m (cs ++ ds) = ended m cs ++ ended (after m cs) ds := by
  induction cs generalizing m with
  | nil => rfl
  | cons c cs ih =>
      rw [List.cons_append, ended, ih, ended, List.append_assoc]; rfl

/-- The reader goes from one mode to another and gives no token. -/
structure Passes (m : Mode) (cs : List Char) (m' : Mode) : Prop where
  after : after m cs = m'
  ended : ended m cs = []

theorem Passes.append {m m' m'' : Mode} {cs ds : List Char} (h : Passes m cs m')
    (h' : Passes m' ds m'') : Passes m (cs ++ ds) m'' where
  after := by rw [after_append, h.after, h'.after]
  ended := by rw [ended_append, h.after, h.ended, h'.ended]; rfl

theorem Passes.cons {m m' m'' : Mode} {c : Char} {cs : List Char}
    (h : step m c = (m', [])) (h' : Passes m' cs m'') :
    Passes m (c :: cs) m'' where
  after := by rw [← h'.after]; exact congrArg (fun r => Script.after r.1 cs) h
  ended := by rw [Script.ended, h, h'.ended]; rfl

theorem Passes.nil (m : Mode) : Passes m [] m := ⟨rfl, rfl⟩

/-! ## Lines -/

/-- The text of a file that is written line by line. -/
def text (ls : List String) : List Char :=
  ls.flatMap fun l => l.toList ++ ['\n']

@[simp] theorem text_nil : text [] = [] := rfl

@[simp] theorem text_cons (l : String) (ls : List String) :
    text (l :: ls) = (l.toList ++ ['\n']) ++ text ls := rfl

theorem text_append (ls ls' : List String) :
    text (ls ++ ls') = text ls ++ text ls' :=
  List.flatMap_append

/-- A line behind which the reader is back where it began. -/
def Complete (l : String) : Prop :=
  after (.code []) (l.toList ++ ['\n']) = .code []

instance (l : String) : Decidable (Complete l) :=
  inferInstanceAs (Decidable (_ = _))

/-- A complete line that is not several lines. -/
structure Tidy (l : String) : Prop where
  complete : Complete l
  single : '\n' ∉ l.toList

instance (l : String) : Decidable (Tidy l) :=
  decidable_of_iff (Complete l ∧ '\n' ∉ l.toList)
    ⟨fun h => ⟨h.1, h.2⟩, fun h => ⟨h.1, h.2⟩⟩

/-- Lines that are no part of the code. -/
def Silent (block : List String) : Prop :=
  Passes (.code []) (text block) (.code [])

theorem silent_of_lines {block : List String}
    (h : ∀ l ∈ block, Passes (.code []) (l.toList ++ ['\n']) (.code [])) :
    Silent block := by
  induction block with
  | nil => exact .nil _
  | cons l block ih =>
      exact (h l List.mem_cons_self).append
        (ih fun k hk => h k (List.mem_cons_of_mem l hk))

/-- The second file is the first one with silent lines between its lines. -/
inductive Commented : List String → List String → Prop where
  | nil : Commented [] []
  | code (l : String) {ls ls' : List String} (rest : Commented ls ls') :
      Commented (l :: ls) (l :: ls')
  | comment {block ls ls' : List String} (silent : Silent block)
      (rest : Commented ls ls') : Commented ls (block ++ ls')

namespace Commented

theorem refl (ls : List String) : Commented ls ls := by
  induction ls with
  | nil => exact .nil
  | cons l ls ih => exact .code l ih

theorem append {as as' bs bs' : List String} (h : Commented as as')
    (h' : Commented bs bs') : Commented (as ++ bs) (as' ++ bs') := by
  induction h with
  | nil => exact h'
  | code l _ ih => exact .code l ih
  | comment silent _ ih => rw [List.append_assoc]; exact .comment silent ih

theorem flatMap {α : Type} {xs : List α} {f g : α → List String}
    (h : ∀ x ∈ xs, Commented (f x) (g x)) :
    Commented (xs.flatMap f) (xs.flatMap g) := by
  induction xs with
  | nil => exact .nil
  | cons x xs ih =>
      rw [List.flatMap_cons, List.flatMap_cons]
      exact (h x List.mem_cons_self).append
        (ih fun y hy => h y (List.mem_cons_of_mem x hy))

/-- If every line of the code is complete, the reader is where a line begins
whenever a comment does, so it reads the same code in both files. -/
theorem agree {ls ls' : List String} (h : Commented ls ls')
    (complete : ∀ l ∈ ls, Complete l) :
    after (.code []) (text ls') = after (.code []) (text ls) ∧
      ended (.code []) (text ls') = ended (.code []) (text ls) := by
  induction h with
  | nil => exact ⟨rfl, rfl⟩
  | code l _ ih =>
      obtain ⟨hafter, hended⟩ :=
        ih fun x hx => complete x (List.mem_cons_of_mem l hx)
      have hl : after (.code []) (l.toList ++ ['\n']) = .code [] :=
        complete l List.mem_cons_self
      simp only [text_cons, after_append _ (_ ++ _), ended_append _ (_ ++ _),
        hl, hafter, hended, and_self]
  | comment silent _ ih =>
      obtain ⟨hafter, hended⟩ := ih complete
      rw [text_append, after_append, ended_append, silent.after, silent.ended]
      exact ⟨hafter, hended⟩

end Commented

/-! ## Comments -/

theorem passes_line {cs : List Char} (h : ∀ c ∈ cs, endsLine c = false) :
    Passes .line cs .line := by
  induction cs with
  | nil => exact .nil _
  | cons c cs ih =>
      refine .cons ?_ (ih fun d hd => h d (List.mem_cons_of_mem c hd))
      rw [step, h c List.mem_cons_self]
      rfl

/-- Inside a block comment a line without the closing mark is passed
over. Behind a star the slash must not come at once, which is why both
modes are needed. -/
theorem passes_block {cs : List Char} (h : ¬"*/".toList <:+: cs) :
    Passes .block (cs ++ ['\n']) .block ∧
      (cs.head? ≠ some '/' → Passes .star (cs ++ ['\n']) .block) := by
  induction cs with
  | nil => exact ⟨⟨rfl, rfl⟩, fun _ => ⟨rfl, rfl⟩⟩
  | cons c cs ih =>
      obtain ⟨hblock, hstar⟩ :=
        ih fun hcs => h (hcs.trans (List.suffix_cons c cs).isInfix)
      by_cases hc : c = '*'
      · subst hc
        have hhead : cs.head? ≠ some '/' := by
          intro hs
          obtain ⟨ds, rfl⟩ := List.head?_eq_some_iff.mp hs
          exact h (List.prefix_append "*/".toList ds).isInfix
        exact ⟨.cons rfl (hstar hhead), fun _ => .cons rfl (hstar hhead)⟩
      · refine ⟨.cons ?_ hblock, fun hs => .cons ?_ hblock⟩
        · rw [step, if_neg hc]
        · rw [step, if_neg fun h => hs (congrArg some h), if_neg hc]

example : tokens "f(/* // */ 1.5, \"/*\") // **/" =
    ["f", "(", "1.5", ",", "\"/*\"", ")"].map String.toList := by decide +kernel

/-! ## Lines of code -/

/-- Characters that neither begin nor end a string, a comment or a line. -/
def isPlain (c : Char) : Bool :=
  !isQuote c && c != '/' && c != '\\' && !endsLine c

/-- A text that leaves a script where it was: no character of it begins or
ends anything. -/
def Plain (s : String) : Prop := ∀ c ∈ s.toList, isPlain c = true

instance (s : String) : Decidable (Plain s) := List.decidableBAll _ _

@[simp] theorem plain_append {s s' : String} :
    Plain (s ++ s') ↔ Plain s ∧ Plain s' := by
  simp only [Plain, String.toList_append, List.mem_append, or_imp, forall_and]

theorem plain_intercalate {sep : String} {parts : List String}
    (hsep : Plain sep) (h : ∀ s ∈ parts, Plain s) :
    Plain (sep.intercalate parts) := by
  induction parts with
  | nil => exact fun c hc => nomatch hc
  | cons s parts ih =>
      have hs := h s List.mem_cons_self
      have hparts := ih fun s' hs' => h s' (List.mem_cons_of_mem s hs')
      cases parts with
      | nil => exact hs
      | cons s' parts =>
          rw [String.intercalate_cons_cons, plain_append, plain_append]
          exact ⟨⟨hs, hsep⟩, hparts⟩

theorem after_plain {cs : List Char} (h : ∀ c ∈ cs, isPlain c = true)
    (word : List Char) : ∃ word', after (.code word) cs = .code word' := by
  induction cs generalizing word with
  | nil => exact ⟨word, rfl⟩
  | cons c cs ih =>
      have hc := h c List.mem_cons_self
      have hcs := ih fun d hd => h d (List.mem_cons_of_mem c hd)
      simp only [isPlain, Bool.and_eq_true, Bool.not_eq_true',
        bne_iff_ne, ne_eq] at hc
      obtain ⟨⟨⟨hquote, hslash⟩, -⟩, -⟩ := hc
      rw [after, List.foldl_cons]
      have hstep : ∃ word', (step (.code word) c).1 = .code word' := by
        rw [step, readCode, if_neg hslash, hquote]
        cases isBlank c
        · exact ⟨_, rfl⟩
        · exact ⟨_, rfl⟩
      obtain ⟨word', hstep⟩ := hstep
      rw [hstep]
      exact hcs word'

theorem after_inside {cs : List Char} (h : ∀ c ∈ cs, isPlain c = true)
    (word : List Char) :
    ∃ word', after (.quoted '"' word) cs = .quoted '"' word' := by
  induction cs generalizing word with
  | nil => exact ⟨word, rfl⟩
  | cons c cs ih =>
      have hc := h c List.mem_cons_self
      simp only [isPlain, isQuote, endsLine, Bool.and_eq_true,
        Bool.not_eq_true', bne_iff_ne, ne_eq, Bool.or_eq_false_iff,
        decide_eq_false_iff_not] at hc
      rw [after, List.foldl_cons, step]
      simp only [hc, if_false, Bool.or_self]
      exact ih (fun d hd => h d (List.mem_cons_of_mem c hd)) _

theorem single_append {s s' : String} :
    '\n' ∉ (s ++ s').toList ↔ '\n' ∉ s.toList ∧ '\n' ∉ s'.toList := by
  rw [String.toList_append, List.mem_append, not_or]

theorem Plain.single {s : String} (h : Plain s) : '\n' ∉ s.toList :=
  fun hmem => absurd (h '\n' hmem) (by decide)

theorem tidy_plain {l : String} (h : Plain l) : Tidy l := by
  obtain ⟨word, hword⟩ := after_plain h []
  refine ⟨?_, h.single⟩
  rw [Complete, after_append, hword]
  rfl

theorem tidy_remark {s : String} (h : Plain s) : Tidy ("//" ++ s) := by
  have hopen : after (.code []) "//".toList = .line := rfl
  have hline : ∀ c ∈ s.toList, endsLine c = false := by
    intro c hc
    have hplain := h c hc
    rw [isPlain, Bool.and_eq_true, Bool.not_eq_true'] at hplain
    exact hplain.2
  refine ⟨?_, single_append.mpr ⟨by decide, h.single⟩⟩
  rw [Complete, String.toList_append, after_append, after_append, hopen,
    (passes_line hline).after]
  rfl

end BridgeBindings.Script
