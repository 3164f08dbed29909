/-!
# Texts of code points

A text of the program may hold a surrogate on its own, which stands for no
character: a literal can be written so that it means one. Such a text is torn.
Messages and JSON escape what is torn about it; there are no bytes for it.
-/

namespace BridgeBindings

inductive CodePoint where
  | char (c : Char)
  /-- A surrogate, by its place among them. -/
  | surrogate (index : Fin 0x800)
  deriving DecidableEq, Repr, Inhabited

/-- What is shown where there is no character. -/
def replacement : Char := Char.ofNat 0xfffd

namespace CodePoint

/-- The code point of this number, if there is one. -/
def ofNat? (n : Nat) : Option CodePoint :=
  if h : n.isValidChar then some (.char (Char.ofNatAux n h))
  else if n < 0x110000 then some (.surrogate (Fin.ofNat _ (n - 0xd800)))
  else none

def value : CodePoint → Nat
  | .char c => c.toNat
  | .surrogate index => 0xd800 + index

def char? : CodePoint → Option Char
  | .char c => some c
  | .surrogate _ => none

/-- The character that is shown for a code point. -/
def face : CodePoint → Char
  | .char c => c
  | .surrogate _ => replacement

end CodePoint

structure CodeText where
  points : List CodePoint
  deriving DecidableEq, Repr, Inhabited

namespace CodeText

def ofString (s : String) : CodeText := ⟨s.toList.map .char⟩

instance : Coe String CodeText := ⟨ofString⟩

instance : Append CodeText := ⟨fun a b => ⟨a.points ++ b.points⟩⟩

/-- The text as a string, unless it is torn. -/
def string? (t : CodeText) : Option String :=
  (t.points.mapM CodePoint.char?).map String.ofList

/-- The text as it is shown, with a replacement for each surrogate. -/
def shown (t : CodeText) : String := String.ofList (t.points.map CodePoint.face)

def isTorn (t : CodeText) : Bool := t.string?.isNone

theorem mapM_char?_eq_some {ps : List CodePoint} {cs : List Char} :
    ps.mapM CodePoint.char? = some cs ↔ ps = cs.map .char := by
  induction ps generalizing cs with
  | nil => cases cs <;> simp
  | cons p ps ih =>
    rw [List.mapM_cons]
    cases p with
    | surrogate index => cases cs <;> simp [CodePoint.char?]
    | char c =>
      cases cs with
      | nil => simp [CodePoint.char?, Option.bind_eq_some_iff]
      | cons d cs =>
        simp only [CodePoint.char?, Option.pure_def, Option.bind_eq_bind,
          Option.bind_some, Option.bind_eq_some_iff, ih, List.map_cons,
          List.cons.injEq, CodePoint.char.injEq, Option.some.injEq]
        exact ⟨fun ⟨_, h, hc, hcs⟩ => ⟨hc, hcs ▸ h⟩,
          fun ⟨hc, h⟩ => ⟨cs, h, hc, rfl⟩⟩

/-- A text is a string exactly if it is the text of that string. -/
theorem string?_eq_some {t : CodeText} {s : String} :
    t.string? = some s ↔ t = ofString s := by
  obtain ⟨ps⟩ := t
  simp only [string?, ofString, Option.map_eq_some_iff,
    mapM_char?_eq_some, mk.injEq]
  constructor
  · rintro ⟨cs, rfl, rfl⟩
    rw [String.toList_ofList]
  · rintro rfl
    exact ⟨s.toList, rfl, String.ofList_toList⟩

theorem length_of_string? {t : CodeText} {s : String} (h : t.string? = some s) :
    s.length = t.points.length := by
  rw [string?_eq_some.mp h, ofString, List.length_map, String.length_toList]

@[simp] theorem string?_ofString (s : String) : (ofString s).string? = some s :=
  string?_eq_some.mpr rfl

@[simp] theorem shown_ofString (s : String) : (ofString s).shown = s := by
  have hface : CodePoint.face ∘ CodePoint.char = id := rfl
  rw [shown, ofString, List.map_map, hface, List.map_id, String.ofList_toList]

@[simp] theorem isTorn_ofString (s : String) : (ofString s).isTorn = false := by
  rw [isTorn, string?_ofString, Option.isNone_some]

end CodeText

/-- A text that is no string. -/
structure TornText where
  text : CodeText
  torn : text.string? = none
  deriving DecidableEq, Repr

end BridgeBindings
