import BridgeBindings.Toml.Document

/-!
# Reading TOML

TOML 1.0, read strictly: whatever is not a document of the language is refused.
Readers take characters from the front of a text. Loops and nested values are
bounded by the length of the text, which every step shortens.
-/

namespace BridgeBindings.Toml

/-- A reader answers a value and what is left of the text, or refuses. -/
abbrev Reader (α : Type) := StateT (List Char) Option α

namespace Reader

def peek : Reader (Option Char) := return (← get).head?

def startsWith (text : String) : Reader Bool :=
  return text.toList.isPrefixOf (← get)

def drop (n : Nat) : Reader Unit := modify (·.drop n)

/-- Takes this text, if it comes next. -/
def accept (text : String) : Reader Bool := do
  if ← startsWith text then
    drop text.length
    return true
  else return false

def expect (text : String) : Reader Unit := do
  if ← accept text then return () else failure

/-- Takes characters as long as they are of a kind. -/
def takeWhile (p : Char → Bool) : Reader (List Char) := do
  let cs ← get
  set (cs.dropWhile p)
  return cs.takeWhile p

def one (p : Char → Bool) : Reader Char := do
  match ← get with
  | c :: cs => if p c then set cs; return c else failure
  | [] => failure

/-- Runs a reader if it does not refuse. -/
def maybe {α : Type} (r : Reader α) : Reader (Option α) := fun cs =>
  match r cs with
  | some (a, rest) => some (some a, rest)
  | none => some (none, cs)

/-- Repeats a step until it answers that it is done. -/
def loop {α : Type} (step : α → Reader (α × Bool)) : Nat → α → Reader α
  | 0, _ => failure
  | n + 1, a => do
    let (a, done) ← step a
    if done then return a else loop step n a

/-- Repeats a step at most as often as there are characters left,
and once more. -/
def untilDone {α : Type} (start : α) (step : α → Reader (α × Bool)) :
    Reader α := do
  loop step ((← get).length + 1) start

end Reader

open Reader

/-! ## Blanks and comments -/

def isSpace (c : Char) : Bool := c = ' ' || c = '\t'

def isControl (c : Char) : Bool := c.toNat < 32 || c.toNat = 127

/-- The characters that no text on one row may hold. -/
def isIllegal (c : Char) : Bool := isControl c && c ≠ '\t'

def isIllegalInRows (c : Char) : Bool := isIllegal c && c ≠ '\n'

def spaces : Reader Unit := discard (takeWhile isSpace)

def comment : Reader Unit := do
  if ← accept "#" then
    let text ← takeWhile (· ≠ '\n')
    if text.any isIllegal then failure else return ()
  else return ()

/-- Blanks, comments and line ends, as they may stand in an array. -/
def gaps : Reader Unit :=
  untilDone () fun _ => do
    let before := (← get).length
    discard (takeWhile fun c => isSpace c || c = '\n')
    comment
    return ((), (← get).length = before)

/-! ## Texts -/

def isHexDigit (c : Char) : Bool :=
  c.isDigit || ('a' ≤ c && c ≤ 'f') || ('A' ≤ c && c ≤ 'F')

def digitValue (c : Char) : Nat :=
  if c.isDigit then c.toNat - 48 else if c.toNat < 97 then c.toNat - 55
    else c.toNat - 87

def numberOf (base : Nat) (digits : List Char) : Nat :=
  digits.foldl (fun n c => n * base + digitValue c) 0

def hexChar (width : Nat) : Reader Char := do
  let digits := (← get).take width
  drop width
  let n := numberOf 16 digits
  if digits.length = width && digits.all isHexDigit &&
    (n < 0xd800 || 0xdfff < n) && n < 0x110000 then
    return Char.ofNat n
  else failure

/-- What a backslash and a character stand for. -/
def escapes : List (Char × Char) :=
  [('b', '\x08'), ('t', '\t'), ('n', '\n'), ('f', '\x0c'), ('r', '\r'),
    ('"', '"'), ('\\', '\\')]

/-- What stands behind a backslash. Over several rows, a backslash at the end of
a row takes the blanks behind it away. -/
def escape (rows : Bool) : Reader (List Char) := do
  let c ← one fun _ => true
  if rows && (isSpace c || c = '\n') then
    if c ≠ '\n' then
      spaces
      match ← peek with
      | none => return []
      | some '\n' => pure ()
      | some _ => failure
    discard (takeWhile fun c => isSpace c || c = '\n')
    return []
  else if c = 'u' then return [← hexChar 4]
  else if c = 'U' then return [← hexChar 8]
  else
    match escapes.lookup c with
    | some e => return [e]
    | none => failure

/-- A text with escapes, from behind its opening quotes to behind the
closing ones. -/
def basicText (rows : Bool) : Reader (List Char) :=
  untilDone [] fun text => do
    if rows && (← startsWith "\"\"\"") then
      drop 3
      return (text, true)
    else
      let c ← one fun _ => true
      if c = '"' then
        if rows then return (text ++ [c], false) else return (text, true)
      else if c = '\\' then return (text ++ (← escape rows), false)
      else if (if rows then isIllegalInRows c else isIllegal c) then failure
      else return (text ++ [c], false)

def literalText : Reader (List Char) := do
  let text ← takeWhile fun c => c ≠ '\'' && !isIllegal c
  expect "'"
  return text

def literalRows : Reader (List Char) :=
  untilDone [] fun text => do
    if ← accept "'''" then return (text, true)
    else return (text ++ [← one (!isIllegalInRows ·)], false)

/-- Up to two more quotes belong to a text over several rows. -/
def closingQuotes (quote : Char) (text : List Char) : Reader (List Char) := do
  let q := String.ofList [quote]
  if ← accept q then
    if ← accept q then return text ++ [quote, quote] else return text ++ [quote]
  else return text

def rowsText (quote : Char) : Reader (List Char) := do
  drop 3
  discard (accept "\n")
  let text ← if quote = '"' then basicText true else literalRows
  closingQuotes quote text

/-- A text on one row, if one comes next. -/
def rowText? : Reader (Option (List Char)) := do
  if ← accept "\"" then return some (← basicText false)
  else if ← accept "'" then return some (← literalText)
  else return none

/-! ## Keys -/

def isBareKeyChar (c : Char) : Bool := c.isAlphanum || c = '-' || c = '_'

def keyPart : Reader String := do
  match ← takeWhile isBareKeyChar with
  | [] =>
    match ← rowText? with
    | some cs => return String.ofList cs
    | none => failure
  | cs => return String.ofList cs

def key : Reader Key := do
  let first ← keyPart
  spaces
  untilDone [first] fun parts => do
    if ← accept "." then
      spaces
      let part ← keyPart
      spaces
      return (parts ++ [part], false)
    else return (parts, true)

/-! ## Numbers and moments -/

/-- Digits of a kind, with single underscores between them. -/
def digits (p : Char → Bool) : Reader (List Char) := do
  let first ← one p
  untilDone [first] fun ds => do
    match ← maybe (do discard (accept "_"); one p) with
    | some d => return (ds ++ [d], false)
    | none => return (ds, true)

def based (base : Nat) (p : Char → Bool) : Reader Toml := do
  drop 2
  return .integer (numberOf base (← digits p))

def sign : Reader (List Char) := do
  if ← accept "-" then return ['-'] else if ← accept "+" then return ['+']
    else return []

def fraction : Reader (List Char) := do
  expect "."
  return '.' :: (← digits Char.isDigit)

def exponent : Reader (List Char) := do
  let e ← one fun c => c = 'e' || c = 'E'
  let s ← sign
  return e :: s ++ (← digits Char.isDigit)

def decimal : Reader Toml := do
  let s ← sign
  let whole ← if ← accept "0" then pure ['0'] else do
    if (← peek).any fun c => '1' ≤ c && c ≤ '9'
      then digits Char.isDigit else failure
  let tail := ((← maybe fraction).getD []) ++ ((← maybe exponent).getD [])
  if tail.isEmpty then
    let n : Int := numberOf 10 whole
    return .integer (if s = ['-'] then -n else n)
  else return .float (String.ofList (s ++ whole ++ tail))

def special : Reader Toml := do
  let s ← sign
  if ← accept "inf" then return .float (String.ofList s ++ "inf")
  else if ← accept "nan" then return .float (String.ofList s ++ "nan")
  else failure

/-- A number of this many digits within bounds. -/
def field (width low high : Nat) : Reader Nat := do
  let ds := (← get).take width
  drop width
  let n := numberOf 10 ds
  if ds.length = width && ds.all Char.isDigit && low ≤ n && n ≤ high
    then return n else failure

def clock : Reader Unit := do
  discard (field 2 0 23)
  expect ":"
  discard (field 2 0 59)
  expect ":"
  discard (field 2 0 59)
  discard (maybe do
    expect "."
    discard (one Char.isDigit)
    discard (takeWhile Char.isDigit))

def offset : Reader Unit := do
  let c ← one fun c => c = 'Z' || c = 'z' || c = '+' || c = '-'
  if c = '+' || c = '-' then
    discard (field 2 0 23)
    expect ":"
    discard (field 2 0 59)

def isLeapYear (year : Nat) : Bool :=
  year % 4 = 0 && (year % 100 ≠ 0 || year % 400 = 0)

def daysIn (year month : Nat) : Nat :=
  if month = 2 then if isLeapYear year then 29 else 28
  else if month = 4 || month = 6 || month = 9 || month = 11 then 30
  else 31

/-- A date: year, month and day. -/
def date : Reader (Nat × Nat × Nat) := do
  let year ← field 4 0 9999
  expect "-"
  let month ← field 2 1 12
  expect "-"
  return (year, month, ← field 2 1 31)

def dayTime : Reader Unit := do
  discard (one fun c => c = 'T' || c = 't' || c = ' ')
  clock
  discard (maybe offset)

/-- A date, with or without a time, or a time. A date that the calendar does not
have is refused. -/
def moment? : Reader (Option Toml) := do
  let before ← get
  let written : Reader Toml := do
    return .moment
      (String.ofList (before.take (before.length - (← get).length)))
  match ← maybe date with
  | some (year, month, day) =>
    if year = 0 || daysIn year month < day then failure
    else
      discard (maybe dayTime)
      return some (← written)
  | none =>
    match ← maybe clock with
    | some () => return some (← written)
    | none => return none

def number : Reader Toml := do
  match ← moment? with
  | some m => return m
  | none =>
    for (mark, base, p) in
        [("0x", 16, isHexDigit), ("0b", 2, fun c => c = '0' || c = '1'),
          ("0o", 8, fun c => '0' ≤ c && c ≤ '7')] do
      if ← startsWith mark then
        if let some v ← maybe (based base p) then return v
    match ← maybe decimal with
    | some v => return v
    | none => special

/-! ## Values -/

def quotedValue (quote : Char) : Reader Toml := do
  if ← startsWith (String.ofList [quote, quote, quote]) then
    return .text (String.ofList (← rowsText quote))
  else
    match ← rowText? with
    | some cs => return .text (String.ofList cs)
    | none => failure

def arrayValue (value : Reader Toml) : Reader Toml := do
  drop 1
  gaps
  if ← accept "]" then return .array []
  else
    let items ← untilDone [] fun items => do
      let item ← value
      gaps
      if ← accept "]" then return (items ++ [item], true)
      else
        expect ","
        gaps
        return (items ++ [item], ← accept "]")
    return .array items

/-- A key with its value. -/
def entry (value : Reader Toml) : Reader (Key × Toml) := do
  let k ← key
  expect "="
  spaces
  return (k, ← value)

def tableValue (value : Reader Toml) : Reader Toml := do
  drop 1
  spaces
  if ← accept "\x7d" then return .table []
  else
    let (es, _) ← untilDone (([] : Entries), ([] : List Key))
        fun (es, closed) => do
      let (k, v) ← entry value
      match addInline es closed k v with
      | none => failure
      | some es =>
        spaces
        if ← accept "\x7d" then return ((es, closed), true)
        else
          expect ","
          spaces
          return ((es, if v.isNested then k :: closed else closed), false)
    return .table es

/-- A value that is nested at most this deep. -/
def value : Nat → Reader Toml
  | 0 => failure
  | depth + 1 => do
    match ← peek with
    | some '"' => quotedValue '"'
    | some '\'' => quotedValue '\''
    | some '[' => arrayValue (value depth)
    | some '\x7b' => tableValue (value depth)
    | some 't' => expect "true"; return .boolean true
    | some 'f' => expect "false"; return .boolean false
    | _ => number

/-! ## Documents -/

def header (d : Document) : Reader Document := do
  drop 1
  let listed ← accept "["
  spaces
  let k ← key
  match (if listed then d.openListed k else d.openTable k) with
  | none => failure
  | some d =>
    expect (if listed then "]]" else "]")
    spaces
    return d

def keyLine (d : Document) : Reader Document := do
  let (k, v) ← entry (value ((← get).length + 1))
  match d.add k v with
  | none => failure
  | some d =>
    spaces
    return d

/-- One line of a document, and whether it is the last. -/
def line (d : Document) : Reader (Document × Bool) := do
  spaces
  match ← peek with
  | none => return (d, true)
  | some c =>
    let d ← if c = '\n' || c = '#' then pure d else if c = '[' then header d
        else keyLine d
    comment
    match ← peek with
    | none => return (d, true)
    | some _ =>
      expect "\n"
      return (d, false)

/-- Reads a carriage return before a line feed as part of the line end. -/
def joinLineEnds : List Char → List Char
  | [] => []
  | '\r' :: '\n' :: cs => '\n' :: joinLineEnds cs
  | c :: cs => c :: joinLineEnds cs

/-- The entries of a document. -/
def read (text : String) : Option Entries :=
  ((untilDone {} line).run (joinLineEnds text.toList)).map fun (d, _) =>
    d.entries

end BridgeBindings.Toml
