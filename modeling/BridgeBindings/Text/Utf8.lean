/-!
# Text as bytes

UTF-8, read strictly: the shortest form only, no surrogates, nothing above the
last code point. A fault names the bytes that stand in the way: a byte that
starts nothing, the bytes of a sequence that breaks off before a byte that does
not continue it, or an unfinished sequence at the end.
-/

namespace BridgeBindings.Text

/-- Why bytes are no text. -/
inductive Utf8Cause where
  | invalidStart | invalidContinuation | unexpectedEnd
  deriving DecidableEq, Repr, Inhabited

def Utf8Cause.text : Utf8Cause → String
  | .invalidStart => "invalid start byte"
  | .invalidContinuation => "invalid continuation byte"
  | .unexpectedEnd => "unexpected end of data"

/-- The first byte in the way, where it is, and how many bytes are. -/
structure Utf8Fault where
  start : Nat
  length : Nat
  byte : UInt8
  cause : Utf8Cause
  deriving DecidableEq, Repr, Inhabited

def hexOf (n : Nat) : String := String.ofList (Nat.toDigits 16 n)

def Utf8Fault.text (f : Utf8Fault) : String :=
  let place :=
    if f.length = 1 then
      "byte 0x" ++ hexOf f.byte.toNat ++ " in position " ++ toString f.start
    else "bytes in position " ++ toString f.start ++ "-" ++
      toString (f.start + f.length - 1)
  "'utf-8' codec can't decode " ++ place ++ ": " ++ f.cause.text

def isContinuation (b : UInt8) : Bool := 0x80 ≤ b && b ≤ 0xbf

/-- How many bytes follow a first byte, and the range of the second one; the
ranges leave out long forms, surrogates and too high numbers. -/
def followers (b : UInt8) : Option (Nat × UInt8 × UInt8) :=
  if 0xc2 ≤ b && b ≤ 0xdf then some (1, 0x80, 0xbf)
  else if b = 0xe0 then some (2, 0xa0, 0xbf)
  else if b = 0xed then some (2, 0x80, 0x9f)
  else if 0xe1 ≤ b && b ≤ 0xef then some (2, 0x80, 0xbf)
  else if b = 0xf0 then some (3, 0x90, 0xbf)
  else if 0xf1 ≤ b && b ≤ 0xf3 then some (3, 0x80, 0xbf)
  else if b = 0xf4 then some (3, 0x80, 0x8f)
  else none

/-- The bits that a first byte gives to the number. -/
def leadBits (count : Nat) (b : UInt8) : Nat := b.toNat % Nat.pow 2 (6 - count)

/-- The bytes that continue a sequence: how many of those wanted are good, and
the number they give. -/
def continuation (number : Nat) : Nat → List UInt8 → Nat × Nat
  | 0, _ | _, [] => (0, number)
  | wanted + 1, b :: rest =>
    if isContinuation b then
      let (good, number) :=
        continuation (number * 64 + b.toNat % 64) wanted rest
      (good + 1, number)
    else (0, number)

/-- Reads one character: the character and how many bytes it takes,
or the fault. -/
def decodeOne (at_ : Nat) (b : UInt8) (rest : List UInt8) :
    Except Utf8Fault (Char × Nat) :=
  if b < 0x80 then .ok (Char.ofNat b.toNat, 0)
  else
    match followers b with
    | none => .error ⟨at_, 1, b, .invalidStart⟩
    | some (count, low, high) =>
      match rest with
      | [] => .error ⟨at_, 1, b, .unexpectedEnd⟩
      | second :: _ =>
        if second < low || high < second then
          .error ⟨at_, 1, b, .invalidContinuation⟩
        else
          let (good, number) := continuation (leadBits count b) count rest
          if good = count then .ok (Char.ofNat number, count)
          else if rest.length = good then
            .error ⟨at_, good + 1, b, .unexpectedEnd⟩
          else .error ⟨at_, good + 1, b, .invalidContinuation⟩

/-- Reads bytes from a position on; `skip` bytes belong to the
character before. -/
def decodeFrom (at_ skip : Nat) : List UInt8 → Except Utf8Fault (List Char)
  | [] => .ok []
  | b :: rest =>
    match skip with
    | skip + 1 => decodeFrom (at_ + 1) skip rest
    | 0 =>
      match decodeOne at_ b rest with
      | .error f => .error f
      | .ok (c, used) => (decodeFrom (at_ + 1) used rest).map (c :: ·)

def decodeUtf8 (bytes : List UInt8) : Except Utf8Fault String :=
  (decodeFrom 0 0 bytes).map String.ofList

def encodeUtf8 (s : String) : List UInt8 := s.toUTF8.toList

end BridgeBindings.Text
