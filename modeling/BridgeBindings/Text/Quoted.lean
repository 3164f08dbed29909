import BridgeBindings.Text.CodePoint
import BridgeBindings.Text.Ranges

/-!
# Quoted text

The quoted form of a text, as messages and expressions show it. Single quotes
stand around it unless the text holds a single quote and no double quote. A
character that cannot be shown is written by its code point in two, four or
eight hexadecimal digits, the fewest that hold it, and so is a surrogate.
-/

namespace BridgeBindings.Text

def hexDigit (n : Nat) : Char :=
  if n < 10 then Char.ofNat (48 + n) else Char.ofNat (87 + n)

/-- The last `width` hexadecimal digits of a number, most significant first. -/
def hexDigits (width n : Nat) : List Char :=
  match width with
  | 0 => []
  | w + 1 => hexDigits w (n / 16) ++ [hexDigit (n % 16)]

def isPrintable (c : Char) : Bool :=
  if c.toNat < 128 then 32 ≤ c.toNat && c.toNat < 127
    else !inRanges c.toNat unprintableRanges

def codeEscape (n : Nat) : List Char :=
  if n < 0x100 then '\\' :: 'x' :: hexDigits 2 n
  else if n < 0x10000 then '\\' :: 'u' :: hexDigits 4 n
  else '\\' :: 'U' :: hexDigits 8 n

def quotedChar (quote c : Char) : List Char :=
  if c = quote || c = '\\' then ['\\', c]
  else if c = '\t' then ['\\', 't']
  else if c = '\n' then ['\\', 'n']
  else if c = '\r' then ['\\', 'r']
  else if isPrintable c then [c]
  else codeEscape c.toNat

def quotedPoint (quote : Char) : CodePoint → List Char
  | .char c => quotedChar quote c
  | .surrogate index => codeEscape (CodePoint.surrogate index).value

def quoteFor (ps : List CodePoint) : Char :=
  if ps.contains (.char '\'') && !ps.contains (.char '"') then '"' else '\''

def quotedWith (quote : Char) (ps : List CodePoint) : List Char :=
  quote :: ps.flatMap (quotedPoint quote) ++ [quote]

/-- The quoted form of a text, torn or not. -/
def quotedText (t : CodeText) : String :=
  String.ofList (quotedWith (quoteFor t.points) t.points)

def quoted (s : String) : String := quotedText s

/-- The quoted form of a string of bytes: each byte as the character of its
number, those above ASCII by their number. -/
def quotedBytes (bytes : List UInt8) : String :=
  let cs := bytes.map fun b => Char.ofNat b.toNat
  let quote := quoteFor (cs.map .char)
  let one (c : Char) := if c.toNat < 128 then quotedChar quote c
    else codeEscape c.toNat
  String.ofList ('b' :: quote :: cs.flatMap one ++ [quote])

end BridgeBindings.Text
