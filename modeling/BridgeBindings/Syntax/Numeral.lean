import BridgeBindings.Syntax.Tree
import BridgeBindings.Text.Decimal
import BridgeBindings.Text.Identifier

/-!
# Numerals

Reads the numeral at the start of a text. Digits may be grouped by single
underscores; an integer in base ten opens with a zero only if it is zero; and a
numeral may not run into a name, except into one of the words that can follow a
value in an expression.
-/

namespace BridgeBindings.Syntax.Numeral

open Text

def digitValue (c : Char) : Nat :=
  if c.isDigit then c.toNat - 48 else if c.isLower then c.toNat - 87
    else c.toNat - 55

def isDigitIn (base : Nat) (c : Char) : Bool :=
  (c.isDigit || ('a' ≤ c && c ≤ 'f') || ('A' ≤ c && c ≤ 'F')) &&
    digitValue c < base

def isWordChar (c : Char) : Bool := c.isAlphanum || c = '_' || 128 ≤ c.toNat

/-- Digits with single underscores between them, from a place where a digit has
to stand: the digits and what follows. -/
def digitRun (base : Nat) : List Char → Option (List Char × List Char)
  | '_' :: _ => none
  | c :: cs =>
    if isDigitIn base c then
      match cs with
      | '_' :: d :: rest =>
        if isDigitIn base d then
          (digitRun base (d :: rest)).map fun (ds, r) => (c :: ds, r)
        else none
      | ['_'] => none
      | d :: rest =>
        if isDigitIn base d then
          (digitRun base (d :: rest)).map fun (ds, r) => (c :: ds, r)
        else some ([c], d :: rest)
      | [] => some ([c], [])
    else none
  | [] => none

def valueOf (base : Nat) (ds : List Char) : Nat :=
  ds.foldl (fun n c => n * base + digitValue c) 0

/-- Whether a text goes on with exactly this word. -/
def startsWord (word rest : List Char) : Bool :=
  word.isPrefixOf rest && !((rest.drop word.length).head?.any isWordChar)

/-- Whether a numeral may end before this text. -/
def endsBefore (rest : List Char) : Bool :=
  match rest with
  | [] => true
  | 'i' :: c :: _ => c = 'f' || c = 'n' || c = 's'
  | c :: _ =>
    !isWordChar c ||
      ["and", "else", "for", "or", "not"].any fun w => startsWord w.toList rest

/-- How many digits an integer in base ten may have, leading zeros
of zero apart. -/
def maxDigits : Nat := 4300

/-- A numeral with what follows it. -/
abbrev Read := Option (Constant × List Char)

def finish (value : Constant) (rest : List Char) : Read :=
  if endsBefore rest then some (value, rest) else none

def inBase (base : Nat) (cs : List Char) : Read :=
  let cs := match cs with
    | '_' :: rest => rest
    | _ => cs
  match digitRun base cs with
  | some (ds, rest) =>
    if rest.head?.any Char.isDigit then none
      else finish (.integer (valueOf base ds)) rest
  | none => none

/-- The end of a numeral with a fraction or an exponent. -/
def finishFraction (digits : List Char) (power : Int) (rest : List Char) :
    Read :=
  let n := valueOf 10 digits
  match rest with
  | 'j' :: r | 'J' :: r => finish (.imaginary (numeralText "" n power ++ "j")) r
  | _ => finish (.float (numeralText ".0" n power)) rest

/-- After the digits and the point, if any: an exponent may follow. `whole` says
that there was no point. -/
def withExponent (whole : Bool) (digits : List Char) (power : Int)
    (cs : List Char) : Read :=
  let without (rest : List Char) : Read :=
    match rest with
    | 'j' :: _ | 'J' :: _ => finishFraction digits power rest
    | _ =>
      if whole then
        let n := valueOf 10 digits
        if maxDigits < digits.length && n ≠ 0 then none
          else finish (.integer n) rest
      else finishFraction digits power rest
  match cs with
  | e :: rest =>
    if e = 'e' || e = 'E' then
      let signed (negative : Bool) (r : List Char) : Read :=
        match digitRun 10 r with
        | some (ds, r) =>
          let n : Int := (valueOf 10 ds : Nat)
          finishFraction digits (power + (if negative then -n else n)) r
        | none => none
      match rest with
      | '+' :: r => signed false r
      | '-' :: r => signed true r
      | c :: _ => if c.isDigit then signed false rest else without cs
      | [] => without cs
    else without cs
  | [] => without cs

def fraction (digits : List Char) (cs : List Char) : Read :=
  match cs with
  | c :: _ =>
    if c.isDigit then
      match digitRun 10 cs with
      | some (ds, rest) =>
          withExponent false (digits ++ ds) (-(ds.length : Int)) rest
      | none => none
    else withExponent false digits 0 cs
  | [] => withExponent false digits 0 cs

def decimal (cs : List Char) : Read :=
  match digitRun 10 cs with
  | some (ds, '.' :: rest) => fraction ds rest
  | some (ds, rest) => withExponent true ds 0 rest
  | none => none

/-- A numeral that opens with a zero and no letter of a base. -/
def afterZero (cs : List Char) : Read :=
  match decimal cs with
  | some (.integer n, rest) =>
    if n = 0 then some (.integer 0, rest) else none
  | other => other

/-- The numeral at the start of a text that opens with a digit, or with a point
and a digit. -/
def read (cs : List Char) : Read :=
  match cs with
  | '.' :: rest => fraction [] rest
  | '0' :: 'x' :: rest | '0' :: 'X' :: rest => inBase 16 rest
  | '0' :: 'o' :: rest | '0' :: 'O' :: rest => inBase 8 rest
  | '0' :: 'b' :: rest | '0' :: 'B' :: rest => inBase 2 rest
  | '0' :: _ => afterZero cs
  | _ => decimal cs

end BridgeBindings.Syntax.Numeral
