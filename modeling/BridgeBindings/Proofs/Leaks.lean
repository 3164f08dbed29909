import BridgeBindings.Proofs.Inert

/-!
# Comments that are not inert

The stubs of a package have the tokens of its code alone exactly if every
method's block of comments is silent. What a block leaves behind is what
decides: its last line closes whatever comment is open there, so behind it the
reader is where a line begins, and then each token that the block has given is
one too many; unless a string or a template has taken up a line feed, and that
is in a token which the code has nowhere. The declarations have no such
converse, since a comment that leaves its line may open a block that swallows
code, and a later one may bring the same code back.
-/

namespace BridgeBindings.Script

/-! ## Reading on -/

/-- The tokens of a text that is read in this mode. -/
def read (m : Mode) (cs : List Char) : List (List Char) :=
  ended m cs ++ last (after m cs)

theorem read_append (m : Mode) (cs ds : List Char) :
    read m (cs ++ ds) = ended m cs ++ read (after m cs) ds := by
  rw [read, ended_append, after_append, List.append_assoc]
  rfl

/-- A token goes on behind a line feed. -/
def Torn (m : Mode) (cs : List Char) : Prop := ∃ t ∈ read m cs, '\n' ∈ t

theorem torn_append {m : Mode} {cs ds : List Char} :
    Torn m (cs ++ ds) ↔ (∃ t ∈ ended m cs, '\n' ∈ t) ∨ Torn
    (after m cs) ds := by
  unfold Torn
  rw [read_append]
  simp only [List.mem_append, or_and_right, exists_or]

theorem torn_cons {m : Mode} {c : Char} {cs : List Char} :
    Torn m (c :: cs) ↔ (∃ t ∈ (step m c).2, '\n' ∈ t) ∨ Torn
    (step m c).1 cs := by
  have h : Torn m ([c] ++ cs) ↔ _ := torn_append
  simpa only [List.singleton_append, ended, List.append_nil, after,
    List.foldl_cons, List.foldl_nil] using h

/-- A string or template that has taken up a line feed becomes a
token with it. -/
theorem torn_quoted {word : List Char} (h : '\n' ∈ word) (q : Char)
    (cs : List Char) :
    Torn (.quoted q word) cs ∧ Torn (.escaped q word) cs := by
  induction cs generalizing word with
  | nil =>
      exact ⟨⟨word, List.mem_singleton.mpr rfl, h⟩,
        ⟨word, List.mem_singleton.mpr rfl, h⟩⟩
  | cons c cs ih =>
      have hlonger : '\n' ∈ word ++ [c] := List.mem_append_left _ h
      refine ⟨torn_cons.mpr ?_, torn_cons.mpr (.inr (ih hlonger).1)⟩
      rw [step]
      split
      · exact .inr (ih hlonger).2
      split
      · exact .inl ⟨_, List.mem_singleton.mpr rfl, hlonger⟩
      split
      · exact .inl ⟨_, List.mem_singleton.mpr rfl, h⟩
      · exact .inr (ih hlonger).1

/-- The line that closes a block of comments ends whatever is open before it,
short of a string or a template that goes on behind the end of the line. -/
theorem torn_or_closed (m : Mode) :
    after m ('\n' :: ("\t */".toList ++ ['\n'])) = .code [] ∨
    ∀ rest, Torn m ('\n' :: rest) := by
  cases m with
  | code word => exact .inl rfl
  | slash word => exact .inl rfl
  | line => exact .inl rfl
  | block => exact .inl rfl
  | star => exact .inl rfl
  | quoted q word =>
      have hlonger : '\n' ∈ word ++ ['\n'] :=
        List.mem_append_right _ (List.mem_singleton.mpr rfl)
      have hstep : step (.quoted q word) '\n' =
          if '\n' = q then (.code [], [word ++ ['\n']])
          else if q ≠ '`' then (.code [], [word])
            else (.quoted q (word ++ ['\n']), []) := by
        simp [step]
      by_cases hq : '\n' = q
      · refine .inr fun rest => torn_cons.mpr (.inl ?_)
        rw [hstep, if_pos hq]
        exact ⟨_, List.mem_singleton.mpr rfl, hlonger⟩
      rw [if_neg hq] at hstep
      by_cases htemplate : q ≠ '`'
      · rw [if_pos htemplate] at hstep
        refine .inl ?_
        rw [after, List.foldl_cons, hstep]
        rfl
      · rw [if_neg htemplate] at hstep
        refine .inr fun rest => torn_cons.mpr (.inr ?_)
        rw [hstep]
        exact (torn_quoted hlonger q rest).1
  | escaped q word =>
      refine .inr fun rest => torn_cons.mpr (.inr (torn_quoted ?_ q rest).1)
      exact List.mem_append_right _ (List.mem_singleton.mpr rfl)

/-- Behind the block the reader is where a line begins, or a token goes on
behind a line feed. -/
def Recovers (block : List String) : Prop :=
  after (.code []) (text block) = .code [] ∨
    ∀ rest, Torn (.code []) (text block ++ rest)

theorem recovers_of_last (ls : List String) (l : String) :
    Recovers (ls ++ [l, "\t */"]) := by
  have htext : text (ls ++ [l, "\t */"]) =
      (text ls ++ l.toList) ++ ('\n' :: ("\t */".toList ++ ['\n'])) := by
    rw [text_append, text_cons, text_cons, text_nil]
    simp only [List.append_assoc, List.append_nil, List.singleton_append]
  rcases torn_or_closed (after (.code []) (text ls ++ l.toList)) with h | h
  · left
    rw [htext, after_append, h]
  · right
    intro rest
    rw [htext, List.append_assoc, torn_append]
    exact .inr (h _)

/-! ## Lines of code -/

/-- No line feed is in what the reader holds, nor can it end a string. -/
def Clean : Mode → Prop
  | .code word | .slash word => '\n' ∉ word
  | .quoted q word | .escaped q word => '\n' ∉ word ∧ q ≠ '\n'
  | .line | .block | .star => True

theorem mem_cut {n : Nat} {cs t : List Char} (ht : t ∈ cut n cs) :
    ∀ c ∈ t, c ∈ cs := by
  induction cs generalizing n with
  | nil => cases n <;> exact absurd ht List.not_mem_nil
  | cons d ds ih =>
      cases n with
      | succ n => exact fun c hc => List.mem_cons_of_mem d (ih ht c hc)
      | zero =>
          rcases List.mem_cons.mp ht with rfl | ht
          · exact fun c hc => List.mem_of_mem_take hc
          · exact fun c hc => List.mem_cons_of_mem d (ih ht c hc)

theorem cut_clean {word : List Char} (h : '\n' ∉ word) :
    ∀ t ∈ cut 0 word, '\n' ∉ t :=
  fun _ ht hmem => h (mem_cut ht _ hmem)

theorem readCode_clean {word : List Char} (h : '\n' ∉ word) (c : Char) :
    (c ≠ '\n' → Clean (readCode word c).1) ∧
    ∀ t ∈ (readCode word c).2, '\n' ∉ t := by
  unfold readCode
  split
  · exact ⟨fun _ => h, List.forall_mem_nil _⟩
  split
  · exact ⟨fun hc => ⟨fun hmem => hc (List.mem_singleton.mp hmem).symm, hc⟩,
      cut_clean h⟩
  split
  · exact ⟨fun _ => List.not_mem_nil, cut_clean h⟩
  · refine ⟨fun hc hmem => ?_, List.forall_mem_nil _⟩
    rcases List.mem_append.mp hmem with hmem | hmem
    · exact h hmem
    · exact hc (List.mem_singleton.mp hmem).symm

theorem step_clean {m : Mode} (h : Clean m) (c : Char) :
    (c ≠ '\n' → Clean (step m c).1) ∧ ∀ t ∈ (step m c).2, '\n' ∉ t := by
  have hnone : ∀ t ∈ ([] : List (List Char)), '\n' ∉ t := List.forall_mem_nil _
  have hlonger : ∀ {word : List Char}, '\n' ∉ word → c ≠ '\n' →
      '\n' ∉ word ++ [c] := by
    intro word hword hc hmem
    rcases List.mem_append.mp hmem with hmem | hmem
    · exact hword hmem
    · exact hc (List.mem_singleton.mp hmem).symm
  -- a character that is no line feed makes no word unclean, and what a line
  -- feed ends holds only what has been read before it
  cases m with
  | code word => exact readCode_clean h c
  | slash word =>
      rw [step]
      split
      · exact ⟨fun _ => trivial, cut_clean h⟩
      split
      · exact ⟨fun _ => trivial, cut_clean h⟩
      · refine readCode_clean (fun hmem => ?_) c
        rcases List.mem_append.mp hmem with hmem | hmem
        · exact h hmem
        · exact absurd hmem (by decide)
  | line =>
      rw [step]
      refine ⟨fun _ => ?_, hnone⟩
      dsimp only
      split
      · exact List.not_mem_nil
      · trivial
  | block =>
      rw [step]
      refine ⟨fun _ => ?_, hnone⟩
      dsimp only
      split <;> trivial
  | star =>
      rw [step]
      refine ⟨fun _ => ?_, hnone⟩
      dsimp only
      split
      · exact List.not_mem_nil
      · split <;> trivial
  | quoted q word =>
      obtain ⟨hword, hq⟩ := h
      rw [step]
      split
      · exact ⟨fun hc => ⟨hlonger hword hc, hq⟩, hnone⟩
      split
      · next hcq =>
          refine ⟨fun _ => List.not_mem_nil, fun t ht => ?_⟩
          rw [List.mem_singleton.mp ht]
          exact hlonger hword (hcq ▸ hq)
      split
      · refine ⟨fun _ => List.not_mem_nil, fun t ht => ?_⟩
        rw [List.mem_singleton.mp ht]
        exact hword
      · exact ⟨fun hc => ⟨hlonger hword hc, hq⟩, hnone⟩
  | escaped q word => exact ⟨fun hc => ⟨hlonger h.1 hc, h.2⟩, hnone⟩

/-- No token of a line of code has a line feed. -/
theorem line_clean {l : String} (h : '\n' ∉ l.toList) :
    ∀ t ∈ ended (.code []) (l.toList ++ ['\n']), '\n' ∉ t := by
  have hrun : ∀ cs m, Clean m → '\n' ∉ cs →
      ∀ t ∈ ended m (cs ++ ['\n']), '\n' ∉ t := by
    intro cs
    induction cs with
    | nil =>
        intro m hm _ t ht
        rw [List.nil_append, ended, ended, List.append_nil] at ht
        exact (step_clean hm '\n').2 t ht
    | cons c cs ih =>
        intro m hm hcs t ht
        obtain ⟨hnext, hended⟩ := step_clean hm c
        rw [List.cons_append, ended] at ht
        rcases List.mem_append.mp ht with ht | ht
        · exact hended t ht
        · exact ih _ (hnext fun hc => hcs (hc ▸ List.mem_cons_self))
            (fun hmem => hcs (List.mem_cons_of_mem c hmem)) t ht
  exact hrun l.toList _ List.not_mem_nil h

/-! ## Files with comments -/

theorem after_tidy {ls : List String} (h : ∀ l ∈ ls, Tidy l) :
    after (.code []) (text ls) = .code [] := by
  induction ls with
  | nil => rfl
  | cons l ls ih =>
      have hl : after (.code []) (l.toList ++ ['\n']) = .code [] :=
        (h l List.mem_cons_self).complete
      rw [text_cons, after_append, hl]
      exact ih fun k hk => h k (List.mem_cons_of_mem l hk)

theorem not_torn_tidy {ls : List String} (h : ∀ l ∈ ls, Tidy l) :
    ¬Torn (.code []) (text ls) := by
  induction ls with
  | nil => rintro ⟨t, ht, -⟩; cases ht
  | cons l ls ih =>
      obtain ⟨hl, hsingle⟩ := h l List.mem_cons_self
      rw [text_cons, torn_append, show after _ (l.toList ++ ['\n']) =
        .code [] from hl]
      rintro (⟨t, ht, hmem⟩ | hrest)
      · exact line_clean hsingle t ht hmem
      · exact ih (fun k hk => h k (List.mem_cons_of_mem l hk)) hrest

/-- A file in pieces, each a block of comments and the lines of
code behind it. -/
abbrev Pieces := List (List String × List String)

/-- The lines of code alone. -/
def Pieces.code (ps : Pieces) : List String := ps.flatMap (·.2)

/-- All lines, the comments with the code. -/
def Pieces.full (ps : Pieces) : List String := ps.flatMap fun p => p.1 ++ p.2

theorem Pieces.commented {ps : Pieces} (h : ∀ p ∈ ps, Silent p.1) :
    Commented ps.code ps.full :=
  .flatMap fun p hp => .comment (h p hp) (.refl p.2)

/-- Unless a token is torn, comments only add tokens, and if they add none,
every block is silent. -/
theorem Pieces.grows {ps : Pieces} (hblocks : ∀ p ∈ ps, Recovers p.1)
    (hcode : ∀ l ∈ ps.code, Tidy l)
    (h : ¬Torn (.code []) (text ps.full)) :
    (read (.code []) (text ps.code)).length ≤
    (read (.code []) (text ps.full)).length ∧
      ((read (.code []) (text ps.full)).length =
        (read (.code []) (text ps.code)).length → ∀ p ∈ ps, Silent p.1) := by
  -- piece by piece: each block leaves the reader where it was, in code, so what
  -- is read of the pieces is what is read of each
  induction ps with
  | nil => exact ⟨Nat.le_refl _, fun _ p hp => absurd hp List.not_mem_nil⟩
  | cons p ps ih =>
      have htidy : ∀ l ∈ p.2, Tidy l :=
        fun l hl => hcode l (List.mem_append_left _ hl)
      have hfull : text (full (p :: ps)) = text p.1 ++
          (text p.2 ++ text (full ps)) := by
        rw [← text_append, ← text_append, ← List.append_assoc]
        rfl
      have hshort : text (code (p :: ps)) = text p.2 ++ text (code ps) :=
        text_append p.2 (code ps)
      rw [hfull] at h
      have hblock : after (.code []) (text p.1) = .code [] :=
        (hblocks p List.mem_cons_self).resolve_right fun htorn => h (htorn _)
      rw [torn_append, hblock, torn_append, after_tidy htidy,
        not_or, not_or] at h
      obtain ⟨hle, hsame⟩ :=
        ih (fun x hx => hblocks x (List.mem_cons_of_mem p hx))
        (fun l hl => hcode l (List.mem_append_right _ hl)) h.2.2
      rw [hfull, hshort, read_append _ (text p.1), hblock,
        read_append _ (text p.2), read_append _ (text p.2), after_tidy htidy]
      simp only [List.length_append]
      refine ⟨by omega, fun heq =>
        List.forall_mem_cons.mpr ⟨⟨hblock, ?_⟩, hsame (by omega)⟩⟩
      exact List.eq_nil_of_length_eq_zero (by omega)

/-- The comments of a file are inert exactly if every block of
them is silent. -/
theorem Pieces.inert_iff {ps : Pieces} (hblocks : ∀ p ∈ ps, Recovers p.1)
    (hcode : ∀ l ∈ ps.code, Tidy l) :
    read (.code []) (text ps.full) = read (.code []) (text ps.code) ↔
    ∀ p ∈ ps, Silent p.1 := by
  refine ⟨fun h => ?_, fun h => ?_⟩
  · have htorn : ¬Torn (.code []) (text ps.full) := by
      unfold Torn
      rw [h]
      exact not_torn_tidy hcode
    exact (grows hblocks hcode htorn).2 (congrArg List.length h)
  · obtain ⟨hafter, hended⟩ :=
      (commented h).agree fun l hl => (hcode l hl).complete
    rw [read, read, hafter, hended]

end BridgeBindings.Script

namespace BridgeBindings

open Render Script

/-- The stubs of a package in pieces. -/
def stubPieces (p : Package) : Pieces :=
  ([], [header p.name, "// @ts-check"]) ::
    p.services.flatMap
      (fun s => ([], ["", "export const " ++ s.1 ++ " = \x7b"]) ::
      s.2.map (fun m => (blockLines m.comments, methodLines m.bare)) ++
      [([], ["\x7d;"])]) ++
    [([], if p.services.isEmpty then exportsNothing else [])]

theorem stubPieces_full (p : Package) : (stubPieces p).full = stubLines p := by
  simp only [stubPieces, stubLines, Pieces.full, List.flatMap_cons,
    List.flatMap_append, List.flatMap_assoc, List.flatMap_map, List.flatMap_nil,
    List.cons_append, List.nil_append, List.append_nil, ← methodLines_bare]

theorem stubPieces_code (p : Package) :
    (stubPieces p).code = stubLines p.bare := by
  simp only [stubPieces, stubLines, Pieces.code, List.flatMap_cons,
    List.flatMap_append, List.flatMap_assoc, List.flatMap_map, List.flatMap_nil,
    List.cons_append, List.nil_append, List.append_nil, Package.bare_services,
    List.isEmpty_map]
  rfl

/-- The blocks of the stubs are those of the methods. -/
theorem forall_stubPieces {p : Package} {Q : List String → Prop} (hnil : Q []) :
    (∀ x ∈ stubPieces p, Q x.1) ↔
    ∀ m ∈ p.methods, Q (blockLines m.comments) := by
  have hservices : (∀ m ∈ p.methods, Q (blockLines m.comments)) ↔
      ∀ s ∈ p.services, ∀ m ∈ s.2, Q (blockLines m.comments) := by
    refine ⟨fun h s hs m hm => h m (Package.mem_methods_of_service hs hm),
      fun h m hm => ?_⟩
    obtain ⟨s, hs, hms⟩ := Package.service_of_mem_methods hm
    exact h s hs m hms
  rw [hservices]
  simp only [stubPieces, List.forall_mem_append, List.forall_mem_cons,
    List.forall_mem_flatMap, List.forall_mem_map, List.not_mem_nil,
    false_implies, implies_true, hnil, true_and, and_true]

theorem recovers_block (comments : List CodeText) :
    Recovers (blockLines comments) := by
  unfold blockLines
  split
  · exact .inl rfl
  · next hsome =>
      obtain rfl | ⟨cs, c, rfl⟩ := List.eq_nil_or_concat comments
      · exact absurd rfl hsome
      · have hlast :=
          recovers_of_last ("\t/**" :: cs.map fun c => "\t" ++ docLine " * " c)
          ("\t" ++ docLine " * " c)
        simpa using hlast

/-- The comments of the bound methods are inert in the stubs exactly if every
method's block is silent. -/
theorem stubs_inert_iff {p : Package} (h : ∀ l ∈ stubLines p.bare, Tidy l) :
    tokens (stubs p) = tokens (stubs p.bare) ↔
    ∀ m ∈ p.methods, Silent (blockLines m.comments) := by
  have hcode : ∀ l ∈ (stubPieces p).code, Tidy l := by
    rw [stubPieces_code]
    exact h
  have hiff := Pieces.inert_iff
    ((forall_stubPieces (.inl rfl)).mpr fun m _ =>
      recovers_block m.comments) hcode
  rw [stubPieces_full, stubPieces_code] at hiff
  rw [stubs, stubs, tokens_lines, tokens_lines]
  exact hiff.trans (forall_stubPieces (.nil _))

end BridgeBindings
