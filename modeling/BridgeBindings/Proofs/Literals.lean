import BridgeBindings.Proofs.Lexing
import BridgeBindings.Syntax.Literal

/-!
# What string literals quote

The texts that an annotation quotes are the string constants at the places where
it is read, `Expr.quoted`. A plain literal stands for a text that is shorter
than itself: an escape is never shorter than what it stands for, and there are
quotes around it.
-/

namespace BridgeBindings.Syntax

mutual

/-- The string constants of an annotation that are annotations themselves. -/
def Expr.quoted : Expr → List String
  | .constant _ (.text text _) => [text]
  | .binary _ left .bitOr right => left.quoted ++ right.quoted
  | .subscript _ _ index => index.quoted
  | .tuple _ elts => quotedAll elts
  | _ => []

/-- The texts that are quoted in some expressions. -/
def quotedAll : List Expr → List String
  | [] => []
  | e :: es => e.quoted ++ quotedAll es

end

namespace Literal

theorem shape_body_length (raw : List Char) :
    (shape raw).body.length ≤ raw.length - 1 := by
  unfold shape
  dsimp only
  split
  · next a b c rest h =>
      have hlen := congrArg List.length h
      simp only [List.length_drop, List.length_cons] at hlen
      split
      · simp only [List.length_dropLast]
        omega
      · simp only [List.length_dropLast, List.length_cons]
        omega
  · simp

theorem unescape_length (fuel : Nat) {cs : List Char} {out : List CodePoint}
    (h : unescape fuel cs = some out) : out.length ≤ cs.length := by
  induction fuel generalizing cs out with
  | zero =>
      rw [unescape] at h
      cases h
      exact Nat.zero_le _
  | succ fuel ih =>
      rw [unescape.eq_def] at h
      dsimp only at h
      split at h
      · cases h
        exact Nat.zero_le _
      · have := ih h
        simp only [List.length_cons]
        omega
      · split at h
        · split at h
          · cases h
          · obtain ⟨more, hmore, rfl⟩ := Option.map_eq_some_iff.mp h
            have := ih hmore
            simp only [List.length_drop, List.length_cons] at this ⊢
            omega
        · cases h
      · split at h
        · -- an escape by number
          split at h
          · obtain ⟨more, hmore, rfl⟩ := Option.map_eq_some_iff.mp h
            have := ih hmore
            simp only [List.length_drop, List.length_cons] at this ⊢
            omega
          · cases h
        · obtain ⟨more, hmore, rfl⟩ := Option.map_eq_some_iff.mp h
          have := ih hmore
          simp only [List.length_cons]
          omega
        split at h
        · obtain ⟨more, hmore, rfl⟩ := Option.map_eq_some_iff.mp h
          have := ih hmore
          simp only [List.length_drop, List.length_cons] at this ⊢
          omega
        · obtain ⟨more, hmore, rfl⟩ := Option.map_eq_some_iff.mp h
          have := ih hmore
          simp only [List.length_cons]
          omega
      · obtain ⟨more, hmore, rfl⟩ := Option.map_eq_some_iff.mp h
        have := ih hmore
        simp only [List.length_cons]
        omega

theorem textOf_length {raw : Bool} {cs : List Char} {out : List CodePoint}
    (h : textOf raw cs = some out) : out.length ≤ cs.length := by
  unfold textOf at h
  split at h
  · cases h
    exact (List.length_map _).le
  · exact unescape_length _ h

/-! ## Adjacent literals -/

/-- The characters of adjacent literals, each without its opening quote. -/
def room : List Part → Nat
  | [] => 0
  | part :: parts => (part.raw.length - 1) + room parts

@[simp] theorem room_nil : room [] = 0 := rfl

@[simp] theorem room_cons (part : Part) (parts : List Part) :
    room (part :: parts) = (part.raw.length - 1) + room parts := rfl

theorem room_append (parts more : List Part) :
    room (parts ++ more) = room parts + room more := by
  induction parts with
  | nil => simp
  | cons part parts ih => simp [ih]; omega

theorem room_reverse (parts : List Part) : room parts.reverse = room parts := by
  induction parts with
  | nil => rfl
  | cons part parts ih => simp [room_append, ih]; omega

theorem addPart_length {inner : Inner} {pos : Position}
    {p after : Parts} {part : Part} (hplain : (shape part.raw).has 'f' = false)
    (h : addPart inner pos p part = .ok after) :
    after.text.length ≤ p.text.length + (part.raw.length - 1) := by
  have hbody := shape_body_length part.raw
  unfold addPart at h
  simp only [hplain, Bool.false_eq_true, if_false] at h
  cases ht : textOf ((shape part.raw).has 'r') (shape part.raw).body with
  | none =>
      rw [ht] at h
      cases h
  | some out =>
      rw [ht] at h
      cases h
      have := textOf_length ht
      simp only [List.length_append]
      omega

theorem addParts_length {inner : Inner} {pos : Position} {parts : List Part}
    {p after : Parts}
    (hplain : ∀ part ∈ parts, (shape part.raw).has 'f' = false)
    (h : parts.foldlM (addPart inner pos) p = .ok after) :
    after.text.length ≤ p.text.length + room parts := by
  induction parts generalizing p with
  | nil =>
      cases h
      exact Nat.le_refl _
  | cons part parts ih =>
      rw [List.foldlM_cons] at h
      cases hpart : addPart inner pos p part with
      | error f =>
          rw [hpart] at h
          cases h
      | ok next =>
          rw [hpart] at h
          have hfirst := addPart_length (hplain part List.mem_cons_self) hpart
          have hrest :=
            ih (fun q hq => hplain q (List.mem_cons_of_mem part hq)) h
          rw [room_cons]
          omega

theorem value_quoted {inner : Inner} {pos : Position}
    {parts : List Part} {e : Expr} (h : value inner pos parts = .ok e)
    {text : String} (ht : text ∈ e.quoted) : text.length ≤ room parts := by
  unfold value at h
  dsimp only at h
  split at h
  · split at h
    · cases h
    · cases hb : (parts.map fun p => shape p.raw).mapM bytesOf with
      | none =>
          rw [hb] at h
          cases h
      | some bytes =>
          rw [hb] at h
          cases h
          exact absurd ht List.not_mem_nil
  · cases hp : parts.foldlM (addPart inner pos) {} with
    | error f =>
        rw [hp] at h
        cases h
    | ok p =>
        rw [hp] at h
        replace h : (if (parts.map fun p => shape p.raw).any (·.has 'f') then
            Except.ok (Expr.joined pos (p.flush pos).reverse) else _) =
              Except.ok e := h
        split at h
        · cases h
          exact absurd ht List.not_mem_nil
        · next hplain =>
            cases h
            have hlen := addParts_length (fun part hpart => ?_) hp
            · unfold Constant.ofText at ht
              split at ht
              · next s hs =>
                  simp only [Expr.quoted, List.mem_singleton] at ht
                  rw [ht, CodeText.length_of_string? hs]
                  simpa using hlen
              · exact absurd ht List.not_mem_nil
            · simpa using fun hf => hplain (List.any_eq_true.mpr
                ⟨shape part.raw, List.mem_map.mpr ⟨part, hpart, rfl⟩, hf⟩)

end Literal

end BridgeBindings.Syntax
