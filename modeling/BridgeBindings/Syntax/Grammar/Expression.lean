import BridgeBindings.Syntax.Grammar.Run
import BridgeBindings.Syntax.Grammar.Target
import BridgeBindings.Syntax.Literal

/-!
# The grammar of expressions

One function for each level of precedence, from atoms up. A rule that has to
read an expression inside itself goes through `Rules`, the rules one level
further down, and takes at least one token before it does; so as many levels as
the text has characters are enough for every text, and `expressionAt` is that
tower of levels.
-/

namespace BridgeBindings.Syntax.Grammar

open BridgeBindings.Syntax.Parser

/-- The kinds of expression that stand inside others. -/
inductive Nonterminal where
  | starExpressions | named | expression | disjunction | inversion | bitOr |
      factor | targets

abbrev Rules := Nonterminal → Parser Expr

/-- Whether an expression can start with this token. -/
def startsExpression (t : Token) : Bool :=
  match t.kind with
  | .name id =>
    !keywords.contains id ||
      ["None", "True", "False", "not", "lambda", "await"].contains id
  | .number _ | .string _ => true
  | .symbol s => ["(", "[", "\x7b", "-", "+", "~", "...", "*"].contains s
  | _ => false

/-- Elements after the first, each behind a comma, and whether
there was a comma. -/
def rest (first : Expr) (item : Parser Expr) : Parser (List Expr × Bool) := do
  let (more, _, comma) ← repeatFrom
    (([], false, false) : List Expr × Bool × Bool) fun (more, closed, _) => do
      if closed then return none
      else if !(← takeSymbol ",") then return none
      else if startsExpression (← peek) then
        return some ((← item) :: more, false, true)
      else return some (more, true, true)
  return (first :: more.reverse, comma)

/-- One element, or a tuple of several. -/
def tupleOf (item : Parser Expr) : Parser Expr := do
  let pos ← position
  let first ← item
  match ← rest first item with
  | (elts, true) => return .tuple pos elts
  | (_, false) => return first

def starred (value : Parser Expr) : Parser Expr := do
  let pos ← position
  symbol "*"
  return .starred pos (← value)

def orStarred (value item : Parser Expr) : Parser Expr := do
  if ← isSymbol "*" then starred value else item

/-! ## Comprehensions -/

def startsClause : Parser Bool := do
  return (← isWord "for") || (← isWord "async")

def clause (r : Rules) : Parser Clause := do
  let isAsync ← takeWord "async"
  word "for"
  let target ← r .targets
  word "in"
  let iter ← r .disjunction
  let conditions ← repeatFrom [] fun cs => do
    if ← takeWord "if" then return some ((← r .disjunction) :: cs)
      else return none
  return ⟨isAsync, target, iter, conditions.reverse⟩

def clauses (r : Rules) : Parser (List Clause) := do
  let first ← clause r
  let more ← repeatFrom [] fun cs => do
    if ← startsClause then return some ((← clause r) :: cs) else return none
  return first :: more.reverse

/-! ## Atoms -/

/-- Reads the expressions of a formatted string with the rules
one level down. -/
def insideString (r : Rules) : Literal.Inner := fun pos text =>
  match run (r .starExpressions) (Lexer.tokens pos (text ++ ['\n'])) with
  | .ok e => .ok e
  | .error row => .error (.inside row)

def strings (r : Rules) : Parser Expr := do
  let pos ← position
  let parts ← repeatFrom ([] : List Literal.Part) fun parts => do
    let t ← peek
    match t.kind with
    | .string raw =>
      advance
      return some (⟨t.pos, raw⟩ :: parts)
    | _ => return none
  match Literal.value (insideString r) pos parts.reverse with
  | .ok e => return e
  | .error .form => faultHere
  | .error (.inside row) => faultAt row

def yieldRule (r : Rules) : Parser Expr := do
  let pos ← position
  word "yield"
  if ← takeWord "from" then return .yieldFrom pos (← r .expression)
  else if startsExpression (← peek) then
    return .yield pos (some (← r .starExpressions))
  else return .yield pos none

/-- After an opening parenthesis: a tuple, a generator or an
expression alone. -/
def parenthesized (r : Rules) (pos : Position) : Parser Expr := do
  if ← takeSymbol ")" then return .tuple pos []
  else if ← isWord "yield" then
    let e ← yieldRule r
    symbol ")"
    return e
  else
    let item := orStarred (r .bitOr) (r .named)
    let first ← item
    if ← startsClause then
      if first.isStarred then refuse
      let cs ← clauses r
      symbol ")"
      return .comprehension pos .generator first cs
    else
      let (elts, comma) ← rest first item
      if !comma && first.isStarred then refuse
      symbol ")"
      return if comma then .tuple pos elts else first

/-- After an opening bracket: a list or a list comprehension. -/
def bracketed (r : Rules) (pos : Position) : Parser Expr := do
  if ← takeSymbol "]" then return .list pos []
  else
    let item := orStarred (r .bitOr) (r .named)
    let first ← item
    if ← startsClause then
      if first.isStarred then refuse
      let cs ← clauses r
      symbol "]"
      return .comprehension pos .list first cs
    else
      let (elts, _) ← rest first item
      symbol "]"
      return .list pos elts

def dictItem (r : Rules) : Parser DictItem := do
  if ← takeSymbol "**" then return ⟨none, ← r .bitOr⟩
  else
    let key ← r .expression
    symbol ":"
    return ⟨some key, ← r .expression⟩

def dictItems (r : Rules) (first : DictItem) : Parser (List DictItem) := do
  let items ← repeatFrom [first] fun items => do
    if !(← takeSymbol ",") then return none
    else if ← isSymbol "\x7d" then return none
    else return some ((← dictItem r) :: items)
  symbol "\x7d"
  return items.reverse

/-- After an opening brace: a dictionary, a set or a comprehension of one. -/
def braced (r : Rules) (pos : Position) : Parser Expr := do
  if ← takeSymbol "\x7d" then return .dict pos []
  else if ← isSymbol "**" then return .dict pos (← dictItems r (← dictItem r))
  else
    let item := orStarred (r .bitOr) (r .named)
    let first ← item
    let keyed ← if first.isStarred || first.isNamed then pure false
        else takeSymbol ":"
    if keyed then
      let value ← r .expression
      if ← startsClause then
        let cs ← clauses r
        symbol "\x7d"
        return .dictComprehension pos first value cs
      else return .dict pos (← dictItems r ⟨some first, value⟩)
    else if ← startsClause then
      if first.isStarred then refuse
      let cs ← clauses r
      symbol "\x7d"
      return .comprehension pos .set first cs
    else
      let (elts, _) ← rest first item
      symbol "\x7d"
      return .set pos elts

def constantWord : String → Option Constant
  | "None" => some .none
  | "True" => some .true
  | "False" => some .false
  | _ => none

def atomRule (r : Rules) : Parser Expr := do
  let t ← peek
  match t.kind with
  | .name id =>
    match constantWord id with
    | some value =>
      advance
      return .constant t.pos value
    | none =>
      let id ← identifier
      return .name t.pos id
  | .number value =>
    advance
    return .constant t.pos value
  | .string _ => strings r
  | .symbol "(" =>
    advance
    parenthesized r t.pos
  | .symbol "[" =>
    advance
    bracketed r t.pos
  | .symbol "\x7b" =>
    advance
    braced r t.pos
  | .symbol "..." =>
    advance
    return .constant t.pos .ellipsis
  | _ => refuse

/-! ## Calls and items -/

/-- Arguments read so far, latest first. After a keyword argument no plain one
may follow, and after a spread mapping no starred one either. -/
structure Arguments where
  positional : List Expr := []
  keywords : List Keyword := []
  afterKeyword : Bool := false
  afterSpread : Bool := false

def argument (r : Rules) (a : Arguments) : Parser Arguments := do
  if ← isSymbol "*" then
    if a.afterSpread then refuse
    let e ← starred (r .expression)
    return { a with positional := e :: a.positional }
  else if ← takeSymbol "**" then
    let value ← r .expression
    return { a with keywords := ⟨none, value⟩ :: a.keywords,
                    afterKeyword := true, afterSpread := true }
  else
    match ← identifierBefore "=" with
    | some id =>
      let value ← r .expression
      return { a with keywords := ⟨some id, value⟩ :: a.keywords,
                      afterKeyword := true }
    | none =>
      let e ← r .named
      if a.afterKeyword then
        let _ ← peek
        refuse
      return { a with positional := e :: a.positional }

/-- The arguments up to the closing parenthesis. A generator may be
the only argument of a call and then shares its parentheses, which
open at `generator`. -/
def arguments (r : Rules) (generator : Option Position) :
    Parser (List Expr × List Keyword) := do
  let a ← repeatFrom ({} : Arguments) fun a => do
    if ← isSymbol ")" then return none
    else
      let next ← argument r a
      match generator, next.positional, next.keywords with
      | some pos, [e], [] =>
        if !e.isStarred && (← startsClause) then
          let cs ← clauses r
          if !(← isSymbol ")") then refuse
          return some { next with
            positional := [.comprehension pos .generator e cs] }
        else separated next
      | _, _, _ => separated next
  symbol ")"
  return (a.positional.reverse, a.keywords.reverse)
where
  separated (a : Arguments) : Parser (Option Arguments) := do
    if ← takeSymbol "," then return some a
    else if ← isSymbol ")" then return some a
    else refuse

def sliceEnd : Parser Bool := do return (← isSymbol ",") || (← isSymbol "]")

def sliceItem (r : Rules) : Parser Expr := do
  let pos ← position
  let lower ← do
    if ← isSymbol ":" then pure none else pure (some (← r .named))
  let sliced ← if lower.any Expr.isNamed then pure false else takeSymbol ":"
  if sliced then
    let upper ← do
      if (← isSymbol ":") || (← sliceEnd) then pure none
        else pure (some (← r .expression))
    let step ← do
      if ← takeSymbol ":" then
        if ← sliceEnd then pure none else pure (some (← r .expression))
      else pure none
    return .slice pos lower upper step
  else
    match lower with
    | some e => return e
    | none => refuse

def slices (r : Rules) : Parser Expr := do
  let pos ← position
  let item := orStarred (r .expression) (sliceItem r)
  let first ← item
  let (more, _, comma) ← repeatFrom
    (([], false, false) : List Expr × Bool × Bool) fun (more, closed, _) => do
      if closed then return none
      else if !(← takeSymbol ",") then return none
      else if ← isSymbol "]" then return some (more, true, true)
      else return some ((← item) :: more, false, true)
  return if comma || first.isStarred then .tuple pos (first :: more.reverse)
    else first

def primaryRule (r : Rules) : Parser Expr := do
  let pos ← position
  let e ← atomRule r
  repeatFrom e fun e => do
    let t ← peek
    match t.kind with
    | .symbol "." =>
      advance
      let attr ← identifier
      return some (.attribute pos e attr)
    | .symbol "(" =>
      advance
      let (args, keywords) ← arguments r (some t.pos)
      return some (.call pos e args keywords)
    | .symbol "[" =>
      advance
      let index ← slices r
      symbol "]"
      return some (.subscript pos e index)
    | _ => return none

/-! ## Operators -/

def awaitRule (r : Rules) : Parser Expr := do
  let pos ← position
  if ← takeWord "await" then return .await pos (← primaryRule r)
    else primaryRule r

def powerRule (r : Rules) : Parser Expr := do
  let pos ← position
  let base ← awaitRule r
  if ← takeSymbol "**" then return .binary pos base .pow (← r .factor)
    else return base

def unaryOp : String → Option UnaryOp
  | "+" => some .plus
  | "-" => some .minus
  | "~" => some .invert
  | _ => none

def factorRule (r : Rules) : Parser Expr := do
  let t ← peek
  match t.kind with
  | .symbol s =>
    match unaryOp s with
    | some op =>
      advance
      return .unary t.pos op (← r .factor)
    | none => powerRule r
  | _ => powerRule r

/-- Operators of one precedence that group to the left. -/
def leftGrouped (ops : List (String × BinaryOp)) (operand : Parser Expr) :
    Parser Expr := do
  let pos ← position
  let first ← operand
  repeatFrom first fun left => do
    match (← peek).kind with
    | .symbol s =>
      match ops.lookup s with
      | some op =>
        advance
        return some (.binary pos left op (← operand))
      | none => return none
    | _ => return none

def termRule (r : Rules) : Parser Expr :=
  leftGrouped [("*", .mul), ("/", .div), ("//", .floorDiv), ("%", .mod),
    ("@", .matMul)] (factorRule r)

def sumRule (r : Rules) : Parser Expr :=
  leftGrouped [("+", .add), ("-", .sub)] (termRule r)

def shiftRule (r : Rules) : Parser Expr :=
  leftGrouped [("<<", .shiftLeft), (">>", .shiftRight)] (sumRule r)

def bitAndRule (r : Rules) : Parser Expr :=
  leftGrouped [("&", .bitAnd)] (shiftRule r)

def bitXorRule (r : Rules) : Parser Expr :=
  leftGrouped [("^", .bitXor)] (bitAndRule r)

def bitOrRule (r : Rules) : Parser Expr :=
  leftGrouped [("|", .bitOr)] (bitXorRule r)

def compareSymbol : String → Option CompareOp
  | "==" => some .eq
  | "!=" => some .notEq
  | "<" => some .lt
  | "<=" => some .ltEq
  | ">" => some .gt
  | ">=" => some .gtEq
  | _ => none

/-- Takes a comparison operator if one is next. -/
def compareOp : Parser (Option CompareOp) := do
  match (← peek).kind with
  | .symbol s =>
    match compareSymbol s with
    | some op =>
      advance
      return some op
    | none => return none
  | .name "in" =>
    advance
    return some .in
  | .name "not" =>
    advance
    word "in"
    return some .notIn
  | .name "is" =>
    advance
    if ← takeWord "not" then return some .isNot else return some .is
  | _ => return none

def comparisonRule (r : Rules) : Parser Expr := do
  let pos ← position
  let left ← bitOrRule r
  let pairs ← repeatFrom ([] : List (CompareOp × Expr)) fun pairs => do
    match ← compareOp with
    | some op => return some ((op, ← bitOrRule r) :: pairs)
    | none => return none
  match pairs.reverse with
  | [] => return left
  | pairs => return .compare pos left (pairs.map (·.1)) (pairs.map (·.2))

def inversionRule (r : Rules) : Parser Expr := do
  let pos ← position
  if ← takeWord "not" then return .unary pos .not (← r .inversion)
    else comparisonRule r

def joinedBy (name : String) (op : BoolOp) (operand : Parser Expr) :
    Parser Expr := do
  let pos ← position
  let first ← operand
  let more ← repeatFrom ([] : List Expr) fun more => do
    if ← takeWord name then return some ((← operand) :: more) else return none
  match more with
  | [] => return first
  | more => return .bool pos op (first :: more.reverse)

def conjunctionRule (r : Rules) : Parser Expr :=
  joinedBy "and" .and (inversionRule r)

def disjunctionRule (r : Rules) : Parser Expr :=
  joinedBy "or" .or (conjunctionRule r)

/-! ## Parameters -/

structure ParameterList where
  positionalOnly : List Param := []
  /-- Latest first, as are the keyword-only ones. -/
  positional : List Param := []
  rest : Option Param := none
  keywordOnly : List Param := []
  keywordRest : Option Param := none
  /-- Whether a star stands before what follows. -/
  starred : Bool := false
  /-- Whether that star has no name and waits for a parameter. -/
  bare : Bool := false
  defaulted : Bool := false

def ParameterList.parameters (p : ParameterList) : Parameters :=
  ⟨p.positionalOnly, p.positional.reverse, p.rest,
    p.keywordOnly.reverse, p.keywordRest⟩

def annotationOf (r : Rules) (annotated : Bool) : Parser (Option Expr) := do
  if !annotated then return none
  else if ← takeSymbol ":" then return some (← r .expression)
  else return none

def defaultOf (r : Rules) : Parser (Option Expr) := do
  if ← takeSymbol "=" then return some (← r .expression) else return none

def parameter (r : Rules) (annotated : Bool) (p : ParameterList) :
    Parser ParameterList := do
  match (← peek).kind with
  | .symbol "/" =>
    if p.starred || p.positional.isEmpty || !p.positionalOnly.isEmpty then
      refuse
    advance
    return { p with positionalOnly := p.positional.reverse, positional := [] }
  | .symbol "*" =>
    if p.starred then refuse
    advance
    if ← isSymbol "," then return { p with starred := true, bare := true }
    else
      let name ← identifier
      let typeExpr ← do
        if !annotated then pure none
        else if ← takeSymbol ":" then
          pure (some (← orStarred (r .bitOr) (r .expression)))
        else pure none
      return { p with starred := true, rest := some ⟨name, typeExpr, none⟩ }
  | .symbol "**" =>
    if p.bare then refuse
    advance
    let name ← identifier
    let typeExpr ← annotationOf r annotated
    return { p with keywordRest := some ⟨name, typeExpr, none⟩ }
  | _ =>
    let name ← identifier
    let typeExpr ← annotationOf r annotated
    let default ← defaultOf r
    let param : Param := ⟨name, typeExpr, default⟩
    if p.starred then
      return { p with keywordOnly := param :: p.keywordOnly, bare := false }
    else if p.defaulted && default.isNone then
      let _ ← peek
      refuse
    else
      return { p with positional := param :: p.positional,
                      defaulted := default.isSome }

/-- The parameters up to `close`, which is left. -/
def parameters (r : Rules) (annotated : Bool) (close : String) :
    Parser Parameters := do
  let p ← repeatFrom ({} : ParameterList) fun p => do
    if ← isSymbol close then return none
    else if p.keywordRest.isSome then refuse
    else
      let p ← parameter r annotated p
      if ← takeSymbol "," then return some p
      else if ← isSymbol close then return some p
      else refuse
  if p.bare then refuse
  return p.parameters

def lambdaRule (r : Rules) : Parser Expr := do
  let pos ← position
  word "lambda"
  let ps ← parameters r false ":"
  symbol ":"
  return .lambda pos ps (← r .expression)

/-! ## Expressions -/

/-- Whether the next tokens are such that a missing comma is not looked for. -/
def startsSoftly : Parser Bool := do
  match ← peekIdentifier with
  | some id =>
    if ["_", "case", "match"].contains id then return true
    else
      let follows ← succeeds (do
        advance
        match (← peek).kind with
        | .string _ => return
        | _ => refuse)
      return follows.isSome
  | none => return false

/-- Inside brackets, two expressions side by side are a missing comma, which the
row of the first answers for. -/
def explainMissingComma (r : Rules) (soft : Bool) (first : Expr) :
    Parser Unit := do
  if soft then return
  match first with
  | .name _ "print" | .name _ "exec" => return
  | _ =>
    match ← succeeds (plainly (r .expression)) with
    | some (_, depth) => if 0 < depth then faultAt first.row else return
    | none => return

def expressionRule (r : Rules) : Parser Expr := do
  if ← isWord "lambda" then lambdaRule r
  else
    let pos ← position
    let explain ← explaining
    let soft ← if explain then startsSoftly else pure true
    let body ← disjunctionRule r
    if explain then explainMissingComma r soft body
    if ← takeWord "if" then
      let test ← disjunctionRule r
      word "else"
      return .conditional pos test body (← r .expression)
    else return body

def namedRule (r : Rules) : Parser Expr := do
  let pos ← position
  match ← identifierBefore ":=" with
  | some id => return .named pos (.name pos id) (← r .expression)
  | none =>
    let e ← expressionRule r
    if ← isSymbol ":=" then refuse
    return e

def starExpressionsRule (r : Rules) : Parser Expr :=
  tupleOf (orStarred (bitOrRule r) (expressionRule r))

/-- One target; what is none is refused. -/
def targetRule (r : Rules) : Parser Expr := do
  let e ← orStarred (primaryRule r) (primaryRule r)
  match e.badTarget? true with
  | some bad => if ← explaining then faultAt bad.row else refuse
  | none => return e

def targetsRule (r : Rules) : Parser Expr := tupleOf (targetRule r)

def rule (r : Rules) : Rules
  | .starExpressions => starExpressionsRule r
  | .named => namedRule r
  | .expression => expressionRule r
  | .disjunction => disjunctionRule r
  | .inversion => inversionRule r
  | .bitOr => bitOrRule r
  | .factor => factorRule r
  | .targets => targetsRule r

/-- The rules with this many levels below them. -/
def expressionAt : Nat → Rules
  | 0 => fun _ => refuse
  | n + 1 => rule (expressionAt n)

end BridgeBindings.Syntax.Grammar
