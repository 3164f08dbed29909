import BridgeBindings.Text.Blank
import BridgeBindings.Text.NormalFormTable

/-!
# The normal form of identifiers

Two identifiers are the same name if they differ only in how their characters
are spelled: a letter with its accent as one character or as two, a letter in
another width or typeface, a ligature. The normal form takes every character
apart, puts the marks behind each letter in order, and puts together again what
one character stands for. ASCII stays as it is.
-/

namespace BridgeBindings.Text

/-- The words of a table, each as its first character and the others. -/
def entriesOf (rows : List String) : List (Char × List Char) :=
  (rows.flatMap (split ' ')).filterMap fun word =>
    match word.toList with
    | [] => none
    | c :: cs => some (c, cs)

def composites : List (Char × List Char) := entriesOf compositeRows

def replaced : List (Char × List Char) := entriesOf replacedRows

def combiningClass (c : Char) : Nat :=
  ((combiningRanges.find? fun (low, high, _) => low ≤ c.toNat &&
    c.toNat ≤ high).map (·.2.2)).getD 0

/-! ## Hangul syllables

Syllables are numbered by their first consonant, then their vowel, then the
consonant that may end them. -/

def firstSyllable : Nat := 0xac00

def syllableCount : Nat := 19 * 21 * 28

/-- The letters of a syllable. -/
def syllableLetters (c : Char) : Option (List Char) :=
  let n := c.toNat - firstSyllable
  if c.toNat < firstSyllable || syllableCount ≤ n then none
  else
    let last := n % 28
    some (Char.ofNat (0x1100 + n / 588) :: Char.ofNat (0x1161 + n % 588 / 28) ::
      if last = 0 then [] else [Char.ofNat (0x11a7 + last)])

/-- The syllable that a consonant and a vowel make, or a syllable without a last
consonant and one. -/
def joinSyllable (a b : Char) : Option Char :=
  let m := a.toNat
  let n := b.toNat
  if 0x1100 ≤ m && m < 0x1113 && 0x1161 ≤ n && n < 0x1176 then
    some (Char.ofNat (firstSyllable + ((m - 0x1100) * 21 + (n - 0x1161)) * 28))
  else if firstSyllable ≤ m && m < firstSyllable + syllableCount &&
      (m - firstSyllable) % 28 = 0 && 0x11a8 ≤ n && n < 0x11c3 then
    some (Char.ofNat (m + (n - 0x11a7)))
  else none

/-! ## Taking apart and putting together -/

/-- What a character comes to. What two characters make is taken apart again, at
most this often. -/
def takeApart : Nat → Char → List Char
  | 0, c => [c]
  | depth + 1, c =>
    if c.toNat < 128 then [c]
    else
      match syllableLetters c, replaced.lookup c, composites.lookup c with
      | some letters, _, _ => letters
      | none, some cs, _ => cs
      | none, none, some cs => cs.flatMap (takeApart depth)
      | none, none, none => [c]

/-- How often a character can be taken apart. -/
def maxDepth : Nat := 4

/-- Puts a mark in front of others, behind those of a lower class. -/
def placeMark (c : Char) : List Char → List Char
  | [] => [c]
  | d :: ds =>
    if 0 < combiningClass d && combiningClass d < combiningClass c then
      d :: placeMark c ds
    else c :: d :: ds

def orderMarks (cs : List Char) : List Char := cs.foldr placeMark []

/-- The character that two characters make. -/
def joined? (a b : Char) : Option Char :=
  (joinSyllable a b).orElse fun _ => (composites.find? (·.2 = [a, b])).map (·.1)

/-- Puts together what follows a letter; `marks` are those between that could
not be, latest first. A mark joins the letter only if those between are of
lower classes. -/
def joinFrom (letter : Char) (marks : List Char) : List Char → List Char
  | [] => letter :: marks.reverse
  | c :: cs =>
    let blocked := marks.head?.any fun m => combiningClass c ≤ combiningClass m
    match (if blocked then none else joined? letter c) with
    | some letter => joinFrom letter marks cs
    | none =>
      if combiningClass c = 0 then letter :: marks.reverse ++ joinFrom c [] cs
      else joinFrom letter (c :: marks) cs

def join : List Char → List Char
  | [] => []
  | c :: cs => if combiningClass c = 0 then joinFrom c [] cs else c :: join cs

def normalForm (s : String) : String :=
  if s.toList.all (·.toNat < 128) then s
  else String.ofList (join (orderMarks (s.toList.flatMap (takeApart maxDepth))))

end BridgeBindings.Text
