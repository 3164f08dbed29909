import BridgeBindings.Syntax.Numeral
import BridgeBindings.Syntax.Token

/-!
# String literals

What a string literal stands for: the value of a plain one, the bytes of a byte
string, the parts of a formatted one. An escape may stand for a surrogate. Names
of characters are not looked up and stand for the replacement character.
-/

namespace BridgeBindings.Syntax.Literal

/-- A literal cut into its opening letters and what stands
between its quotes. -/
structure Shape where
  letters : List Char
  triple : Bool
  body : List Char

def Shape.has (s : Shape) (c : Char) : Bool := s.letters.contains c

def shape (raw : List Char) : Shape :=
  let letters := raw.takeWhile fun c => c ≠ '"' && c ≠ '\''
  match raw.drop letters.length with
  | a :: b :: c :: rest =>
    if a = b && b = c then
      ⟨letters.map Char.toLower, true, rest.dropLast.dropLast.dropLast⟩
    else ⟨letters.map Char.toLower, false, (b :: c :: rest).dropLast⟩
  | _ => ⟨letters.map Char.toLower, false, []⟩

/-- The one character that an escape of one letter stands for. -/
def simpleEscape : Char → Option Char
  | '\\' => some '\\'
  | '\'' => some '\''
  | '"' => some '"'
  | 'a' => some '\x07'
  | 'b' => some '\x08'
  | 'f' => some '\x0c'
  | 'n' => some '\n'
  | 'r' => some '\r'
  | 't' => some '\t'
  | 'v' => some '\x0b'
  | _ => none

def isOctal (c : Char) : Bool := '0' ≤ c && c ≤ '7'

/-- Exactly `count` hexadecimal digits. -/
def hexEscape (count : Nat) (cs : List Char) : Option Nat :=
  let ds := cs.take count
  if ds.length = count && ds.all (Numeral.isDigitIn 16)
    then some (Numeral.valueOf 16 ds) else none

/-- How many digits stand behind the letter of an escape by number. -/
def numberedEscape : Char → Option Nat
  | 'x' => some 2
  | 'u' => some 4
  | 'U' => some 8
  | _ => none

/-- Evaluates escapes, one unit of fuel for each; nothing for a
malformed one. -/
def unescape : Nat → List Char → Option (List CodePoint)
  | 0, _ => some []
  | fuel + 1, cs =>
    match cs with
    | [] => some []
    | '\\' :: '\n' :: rest => unescape fuel rest
    | '\\' :: 'N' :: rest =>
      match rest with
      | '{' :: inner =>
        let name := inner.takeWhile (· ≠ '\x7d')
        if name.isEmpty || name.length = inner.length then none
        else (unescape fuel (inner.drop (name.length + 1))).map
          (.char replacement :: ·)
      | _ => none
    | '\\' :: c :: rest =>
      match numberedEscape c, simpleEscape c with
      | some count, _ =>
        match (hexEscape count rest).bind CodePoint.ofNat? with
        | some p => (unescape fuel (rest.drop count)).map (p :: ·)
        | none => none
      | none, some value => (unescape fuel rest).map (.char value :: ·)
      | none, none =>
        if isOctal c then
          let ds := (c :: rest).take 3 |>.takeWhile isOctal
          let value := Char.ofNat (Numeral.valueOf 8 ds)
          (unescape fuel ((c :: rest).drop ds.length)).map (.char value :: ·)
        else (unescape fuel rest).map (.char '\\' :: .char c :: ·)
    | c :: rest => (unescape fuel rest).map (.char c :: ·)

/-- The value of text inside quotes, `raw` if escapes are left alone. -/
def textOf (raw : Bool) (cs : List Char) : Option (List CodePoint) :=
  if raw then some (cs.map .char) else unescape (cs.length + 1) cs

/-- Evaluates the escapes of a byte string. -/
def unescapeBytes : Nat → List Char → Option (List UInt8)
  | 0, _ => some []
  | fuel + 1, cs =>
    match cs with
    | [] => some []
    | '\\' :: '\n' :: rest => unescapeBytes fuel rest
    | '\\' :: 'x' :: rest =>
      match hexEscape 2 rest with
      | some n => (unescapeBytes fuel (rest.drop 2)).map (n.toUInt8 :: ·)
      | none => none
    | '\\' :: c :: rest =>
      match simpleEscape c with
      | some value => (unescapeBytes fuel rest).map (value.toNat.toUInt8 :: ·)
      | none =>
        if isOctal c then
          let ds := (c :: rest).take 3 |>.takeWhile isOctal
          let value := (Numeral.valueOf 8 ds).toUInt8
          (unescapeBytes fuel ((c :: rest).drop ds.length)).map (value :: ·)
        else (unescapeBytes fuel rest).map (92 :: c.toNat.toUInt8 :: ·)
    | c :: rest => (unescapeBytes fuel rest).map (c.toNat.toUInt8 :: ·)

def bytesOf (s : Shape) : Option (List UInt8) :=
  if !(s.body.all fun c => c.toNat < 128) then none
  else if s.has 'r' then some (s.body.map fun c => c.toNat.toUInt8)
  else unescapeBytes (s.body.length + 1) s.body

/-! ## Formatted strings

Braces enclose expressions; doubled braces stand for themselves. Inside a
format specification braces may enclose one more level of expressions. -/

/-- Why a string is refused: for its own form, which the token behind it
answers for, or for an expression inside it. -/
inductive Fault where
  | form
  | inside (row : Nat)

/-- The end of the literal text at the start of a formatted string, and whether
only a doubled brace ended it: the text and where reading goes on. -/
def literalText (raw top : Bool) (c : Cursor) :
    Nat → Except Fault (List Char × Cursor × Bool)
  | 0 => .ok ([], c, false)
  | fuel + 1 =>
    match c.rest with
    | [] => .ok ([], c, false)
    | '\\' :: 'N' :: '{' :: rest =>
      if raw then keep 1 fuel
      else keep (min (3 + (rest.takeWhile (· ≠ '\x7d')).length + 1)
        c.rest.length) fuel
    | '\\' :: next :: _ =>
      if raw then keep 1 fuel
      else if next = '{' || next = '\x7d' then brace 1 next fuel
      else keep 2 fuel
    | ch :: _ =>
        if ch = '{' || ch = '\x7d' then brace 0 ch fuel else keep 1 fuel
where
  keep (count fuel : Nat) : Except Fault (List Char × Cursor × Bool) :=
    (literalText raw top (c.skip count) fuel).map fun (text, after, doubled) =>
      (c.rest.take count ++ text, after, doubled)
  brace (before : Nat) (ch : Char) (_ : Nat) :
    Except Fault (List Char × Cursor × Bool) :=
    let lead := c.rest.take before
    let here := c.skip before
    if top && (here.rest.drop 1).head? = some ch then
      .ok (lead ++ [ch], here.skip 2, true)
    else if top && ch = '\x7d' then .error .form
    else .ok (lead, here, false)

/-- What is open while looking for the end of an expression: a quote, single or
triple, and brackets. -/
structure Nesting where
  quote : Option (Char × Bool) := none
  brackets : List Char := []

def matchesBracket : Char → Char → Bool
  | '(', ')' => true
  | '[', ']' => true
  | '{', '\x7d' => true
  | _, _ => false

/-- The text of an expression and the place of the character that ends it. -/
def expressionText (n : Nesting) (c : Cursor) :
    Nat → Except Fault (List Char × Cursor)
  | 0 => .error .form
  | fuel + 1 =>
    match c.rest with
    | [] => .error .form
    | ch :: rest =>
      if ch = '\\' then .error .form
      else
        match n.quote with
        | some (q, triple) =>
          if ch = q then
            if triple then
              if [q, q].isPrefixOf rest then
                keep 3 { n with quote := none } fuel
              else keep 1 n fuel
            else keep 1 { n with quote := none } fuel
          else keep 1 n fuel
        | none =>
          if ch = '\'' || ch = '"' then
            if [ch, ch].isPrefixOf rest then
              keep 3 { n with quote := some (ch, true) } fuel
            else keep 1 { n with quote := some (ch, false) } fuel
          else if ch = '[' || ch = '{' || ch = '(' then
            if n.brackets.length ≥ 200 then .error .form
            else keep 1 { n with brackets := ch :: n.brackets } fuel
          else if ch = '#' then .error .form
          else
            match n.brackets with
            | [] =>
              if ch = '!' || ch = ':' || ch = '\x7d' || ch = '=' ||
                ch = '>' || ch = '<' then
                if rest.head? = some '=' && ch ≠ ':' && ch ≠ '\x7d' then
                  keep 2 n fuel
                else if ch = '>' || ch = '<' then keep 1 n fuel
                else .ok ([], c)
              else if ch = ']' || ch = ')' then .error .form
              else keep 1 n fuel
            | top :: outer =>
              if ch = ']' || ch = '\x7d' || ch = ')' then
                if matchesBracket top ch then
                  keep 1 { n with brackets := outer } fuel
                else .error .form
              else keep 1 n fuel
where
  keep (count : Nat) (n : Nesting) (fuel : Nat) :
    Except Fault (List Char × Cursor) :=
    (expressionText n (c.skip count) fuel).map fun (text, after) =>
      (c.rest.take count ++ text, after)

/-- The parts of a formatted string, latest first, and the literal text that
will be its next part. -/
structure Parts where
  done : List Expr := []
  text : List CodePoint := []

def Parts.flush (pos : Position) (p : Parts) : List Expr :=
  if p.text.isEmpty then p.done
  else .constant pos (.ofText ⟨p.text⟩ false) :: p.done

/-- How expressions inside a string are read: from their place and their text,
which is given its own brackets. -/
abbrev Inner := Position → List Char → Except Fault Expr

def isAsciiBlank (c : Char) : Bool := c = ' ' || (9 ≤ c.toNat && c.toNat ≤ 13)

/-- Whether only blanks stand where an expression should. -/
def isEmptyExpression (cs : List Char) : Bool :=
  cs.all fun c => c = ' ' || c = '\t' || c = '\n' || c = '\x0c'

/-- Adds a formatted string to the parts before it; `pos` is where the whole
literal starts, `level` how deep this one stands in format specifications. -/
def addFormatted (inner : Inner) (pos : Position) (raw : Bool)
    (level : Nat) (p : Parts) (c : Cursor) : Nat → Except Fault (Parts × Cursor)
  | 0 => .error .form
  | fuel + 1 => do
    let (text, c, doubled) ← literalText raw (level = 0) c (c.rest.length + 1)
    let value ← (textOf raw text).elim (.error Fault.form) .ok
    let p := { p with text := p.text ++ value }
    if doubled then addFormatted inner pos raw level p c fuel
    else
      match c.rest with
      | '{' :: _ => do
        if 2 ≤ level then throw .form
        let (text, ended) ← expressionText {} c.next (c.rest.length + 1)
        if isEmptyExpression text then throw .form
        let value ← inner c.pos ('(' :: text ++ [')'])
        let (shown, c) :=
          if ended.rest.head? = some '=' then
            let blanks := (ended.rest.drop 1).takeWhile isAsciiBlank
            (text ++ '=' :: blanks, ended.skip (1 + blanks.length))
          else ([], ended)
        let p := { p with text := p.text ++ shown.map CodePoint.char }
        let (conversion, c) ←
          match c.rest with
          | '!' :: k :: _ =>
            if k = 's' || k = 'r' || k = 'a' then pure (some k, c.skip 2)
              else throw Fault.form
          | '!' :: [] => throw Fault.form
          | _ => pure (none, c)
        let (spec, c) ←
          match c.rest with
          | ':' :: _ :: _ => do
            let (inside, c) ← addFormatted inner pos raw (level + 1)
                {} c.next fuel
            pure (some (Expr.joined pos (inside.flush pos).reverse), c)
          | [':'] => throw Fault.form
          | _ => pure (none, c)
        match c.rest with
        | '\x7d' :: _ =>
          let conversion :=
            if !shown.isEmpty && spec.isNone && conversion.isNone then some 'r'
              else conversion
          let done := .formatted pos value conversion spec :: p.flush pos
          addFormatted inner pos raw level ⟨done, []⟩ c.next fuel
        | _ => throw .form
      | [] => if level = 0 then .ok (p, c) else throw .form
      | _ => if level = 0 then throw .form else .ok (p, c)

/-! ## Adjacent literals -/

/-- A string token: where it starts and its text. -/
structure Part where
  pos : Position
  raw : List Char

def Part.cursor (p : Part) (s : Shape) : Cursor :=
  (⟨p.raw, p.pos.row, p.pos.column⟩ : Cursor).skip
    (s.letters.length + if s.triple then 3 else 1)

def addPart (inner : Inner) (pos : Position) (p : Parts) (part : Part) :
    Except Fault Parts := do
  let s := shape part.raw
  if s.has 'f' then
    let c := part.cursor s
    let c := { c with rest := s.body }
    let (p, _) ← addFormatted inner pos (s.has 'r') 0 p c (part.raw.length + 1)
    return p
  else
    let value ← (textOf (s.has 'r') s.body).elim (.error Fault.form) .ok
    return { p with text := p.text ++ value }

/-- The value of adjacent string literals. -/
def value (inner : Inner) (pos : Position) (parts : List Part) :
    Except Fault Expr := do
  let shapes := parts.map fun p => shape p.raw
  if shapes.any (·.has 'b') then
    if !shapes.all (·.has 'b') then throw .form
    let bytes ← (shapes.mapM bytesOf).elim (.error Fault.form) .ok
    return .constant pos (.bytes bytes.flatten)
  else
    let p ← parts.foldlM (addPart inner pos) {}
    if shapes.any (·.has 'f') then return .joined pos (p.flush pos).reverse
    else
      let marked := shapes.head?.any (·.has 'u')
      return .constant pos (.ofText ⟨p.text⟩ marked)

end BridgeBindings.Syntax.Literal
