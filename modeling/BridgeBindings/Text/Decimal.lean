/-!
# Binary fractions and their shortest decimal text

A decimal numeral stands for the nearest binary fraction of 53 significant
bits, a half going to the even neighbour. The text of such a fraction has the
fewest digits that read back as it, the nearest to it where several do. All of
it is integer arithmetic: a fraction is `mantissa * 2 ^ exponent`.
-/

namespace BridgeBindings.Text

structure Binary where
  mantissa : Nat
  exponent : Int
  deriving DecidableEq, Repr

/-- A positive rational as a pair of naturals, scaled by a power of a base. -/
def scaled (base : Nat) (num den : Nat) (power : Int) : Nat × Nat :=
  match power with
  | .ofNat n => (num * base.pow n, den)
  | .negSucc n => (num, den * base.pow (n + 1))

/-- The quotient to the nearest integer, a half to the even neighbour. -/
def roundHalfEven (num den : Nat) : Nat :=
  let q := num / den
  let r := num % den
  if 2 * r < den then q else if den < 2 * r then q + 1
    else if q % 2 = 0 then q else q + 1

/-- The binary fraction nearest to `digits * 10 ^ power`, or nothing when that
is beyond the largest one. -/
def nearestBinary? (digits : Nat) (power : Int) : Option Binary :=
  if digits = 0 then some ⟨0, 0⟩
  else
    let length : Int := (Nat.log2 digits + 1 : Nat)
    if 400 < power then none
    else if length + 4 * power < -5000 then some ⟨0, 0⟩
    else
      let (num, den) := scaled 10 digits 1 power
      let guess : Int := (Nat.log2 num : Int) - (Nat.log2 den : Int) - 52
      -- the guess is right or one too large
      let exponent :=
        let (n, d) := scaled 2 num den (-guess)
        if n < Nat.pow 2 52 * d then guess - 1 else guess
      let exponent := max exponent (-1074)
      let (n, d) := scaled 2 num den (-exponent)
      let mantissa := roundHalfEven n d
      let (mantissa, exponent) :=
        if mantissa = Nat.pow 2 53 then (Nat.pow 2 52, exponent + 1)
          else (mantissa, exponent)
      if 971 < exponent then none else some ⟨mantissa, exponent⟩

/-- The number of decimal digits of the integer part of `num / den`, less one;
negative below one. -/
def decimalExponent (num den : Nat) : Int :=
  let estimate : Int :=
    ((Nat.log2 num : Int) - (Nat.log2 den : Int)) * 30103 / 100000
  let fits (e : Int) : Bool :=
    let (n, d) := scaled 10 num den (-e)
    d ≤ n
  if fits (estimate + 1) then estimate + 1
  else if fits estimate then estimate
  else estimate - 1

/-- The candidates with `count` digits next to a fraction, tried from few digits
to many: the first that reads back as the same fraction wins. The answer is the
digits and the power of ten they are scaled by. -/
def shortestFrom (b : Binary) (num den : Nat) (top : Int) (count : Nat) :
    Nat → Nat × Int
  | 0 => (b.mantissa, b.exponent)
  | fuel + 1 =>
    let power := top - (count : Int) + 1
    let (n, d) := scaled 10 num den (-power)
    let below := n / d
    let nearest := roundHalfEven n d
    let reads (digits : Nat) : Bool := nearestBinary? digits power == some b
    if reads nearest then (nearest, power)
    else if reads below then (below, power)
    else if reads (below + 1) then (below + 1, power)
    else shortestFrom b num den top (count + 1) fuel

def shortestDigits (b : Binary) : Nat × Int :=
  let (num, den) := scaled 2 b.mantissa 1 b.exponent
  shortestFrom b num den (decimalExponent num den) 1 17

/-- Drops zeros at the end of a digit string. -/
def dropTrailingZeros (ds : List Char) : List Char :=
  ds.foldr (fun c kept => if kept.isEmpty && c = '0' then [] else c :: kept) []

/-- The text of a fraction: positional from `0.0001` up to sixteen digits before
the point, else with an exponent of at least two digits. `whole` is what follows
an integer. -/
def decimalText (whole : String) (b : Binary) : String :=
  if b.mantissa = 0 then "0" ++ whole
  else
    let (digits, power) := shortestDigits b
    let all := (toString digits).toList
    let point : Int := (all.length : Int) + power
    let ds := dropTrailingZeros all
    if -4 < point ∧ point ≤ 16 then
      if point ≤ 0 then
        String.ofList ('0' :: '.' :: List.replicate (-point).toNat '0' ++ ds)
      else
        let p := point.toNat
        if ds.length ≤ p then
          String.ofList (ds ++ List.replicate (p - ds.length) '0') ++ whole
        else String.ofList (ds.take p ++ '.' :: ds.drop p)
    else
      let e := point - 1
      let size := toString e.natAbs
      let size := if size.length < 2 then "0" ++ size else size
      let sign := if e < 0 then "-" else "+"
      match ds with
      | [d] => String.ofList [d] ++ "e" ++ sign ++ size
      | d :: rest => String.ofList (d :: '.' :: rest) ++ "e" ++ sign ++ size
      | [] => "0" ++ whole

/-- The text of `digits * 10 ^ power`. What is beyond all fractions is written
as a numeral that is itself beyond them. -/
def numeralText (whole : String) (digits : Nat) (power : Int) : String :=
  match nearestBinary? digits power with
  | some b => decimalText whole b
  | none => "1e309"

end BridgeBindings.Text
