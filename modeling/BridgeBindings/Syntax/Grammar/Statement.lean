import BridgeBindings.Syntax.Grammar.Pattern

/-!
# The grammar of statements

Simple statements stand on a line, several of them divided by semicolons.
Compound ones hold blocks: an indented run of statements, or what stands on the
rest of the line. A block inside a statement is read one level further down, and
as many levels as the text has characters are enough.
-/

namespace BridgeBindings.Syntax.Grammar

open BridgeBindings.Syntax.Parser

/-- What a statement reads through: expressions, patterns and blocks. -/
structure Context where
  rules : Rules
  pattern : Parser Unit
  /-- The statements of an indented block. -/
  inner : Parser (List Stmt)

/-! ## Simple statements -/

def assignOp : String → Option BinaryOp
  | "+=" => some .add
  | "-=" => some .sub
  | "*=" => some .mul
  | "@=" => some .matMul
  | "/=" => some .div
  | "%=" => some .mod
  | "&=" => some .bitAnd
  | "|=" => some .bitOr
  | "^=" => some .bitXor
  | "<<=" => some .shiftLeft
  | ">>=" => some .shiftRight
  | "**=" => some .pow
  | "//=" => some .floorDiv
  | _ => none

def assigned (r : Rules) : Parser Expr := do
  if ← isWord "yield" then yieldRule r else r .starExpressions

/-- Further targets, latest first, and the value after the last equals sign. -/
def assignments (r : Rules) (first : Expr) : Parser (List Expr × Expr) :=
  repeatFrom ([], first) fun (targets, value) => do
    if ← isSymbol "=" then
      match value.badTarget? true with
      | some bad => faultAt bad.row
      | none =>
        advance
        return some (value :: targets, ← assigned r)
    else return none

/-- An assignment of any kind, or an expression alone. -/
def expressionStatement (r : Rules) : Parser Stmt := do
  let start ← position
  let first ← assigned r
  match (← peek).kind with
  | .symbol ":" =>
    if first.isSingleTarget then
      advance
      let typeExpr ← r .expression
      let value ← do
        if ← takeSymbol "=" then pure (some (← assigned r)) else pure none
      return .annAssign ⟨start, ← endRow⟩ first typeExpr value
    else
      match first with
      | .tuple .. | .list .. =>
          if ← explaining then faultAt first.row else refuse
      | _ => refuse
  | .symbol "=" =>
    let (targets, value) ← assignments r first
    return .assign ⟨start, ← endRow⟩ targets.reverse value
  | .symbol s =>
    match assignOp s with
    | some op =>
      if first.isSingleTarget then
        advance
        return .augAssign first op (← assigned r)
      else faultAt first.row
    | none => return .expr first
  | _ => return .expr first

/-- Names divided by dots, as one text. -/
def dottedText : Parser String := do
  let first ← identifier
  repeatFrom first fun text => do
    if ← takeSymbol "." then return some (text ++ "." ++ (← identifier))
      else return none

def importName (name : Parser String) : Parser ImportName := do
  let name ← name
  if ← takeWord "as" then return ⟨name, some (← identifier)⟩
    else return ⟨name, none⟩

def importNames (name : Parser String) : Parser (List ImportName) := do
  let first ← importName name
  let more ← repeatFrom [first] fun names => do
    if ← takeSymbol "," then return some ((← importName name) :: names)
      else return none
  return more.reverse

/-- Names in parentheses, which may end with a comma. -/
def importNamesInside : Parser (List ImportName) := do
  let first ← importName identifier
  let names ← repeatFrom [first] fun names => do
    if !(← takeSymbol ",") then return none
    else if ← isSymbol ")" then return none
    else return some ((← importName identifier) :: names)
  symbol ")"
  return names.reverse

def importFrom : Parser Stmt := do
  let level ← repeatFrom 0 fun n => do
    if ← takeSymbol "." then return some (n + 1)
    else if ← takeSymbol "..." then return some (n + 3)
    else return none
  let module ← do
    if 0 < level && (← isWord "import") then pure none
      else pure (some (← dottedText))
  word "import"
  if ← takeSymbol "*" then return .importFrom module level [⟨"*", none⟩]
  else if ← takeSymbol "(" then
    return .importFrom module level (← importNamesInside)
  else return .importFrom module level (← importNames identifier)

def deleteTargets (r : Rules) : Parser (List Expr) := do
  let (targets, _) ← rest (← item) item
  return targets
where
  item : Parser Expr := do
    let e ← primaryRule r
    match e.badTarget? false with
    | some bad => if ← explaining then faultAt bad.row else refuse
    | none => return e

def optionalExpressions (r : Rules) : Parser (Option Expr) := do
  if startsExpression (← peek) then return some (← r .starExpressions)
    else return none

def simpleStatement (r : Rules) : Parser Stmt := do
  match (← peek).kind with
  | .name "return" =>
    advance
    return .returns (← optionalExpressions r)
  | .name "import" =>
    advance
    return .importModules (← importNames dottedText)
  | .name "from" =>
    advance
    importFrom
  | .name "raise" =>
    advance
    if startsExpression (← peek) then
      let exc ← r .expression
      if ← takeWord "from" then
        return .raise (some exc) (some (← r .expression))
      else return .raise (some exc) none
    else return .raise none none
  | .name "del" =>
    advance
    return .delete (← deleteTargets r)
  | .name "assert" =>
    advance
    let test ← r .expression
    if ← takeSymbol "," then return .assert test (some (← r .expression))
    else return .assert test none
  | .name "global" | .name "nonlocal" =>
    advance
    let _ ← identifier
    repeatFrom () fun _ => do
      if ← takeSymbol "," then
        let _ ← identifier
        return some ()
      else return none
    return .other
  | .name "pass" | .name "break" | .name "continue" =>
    advance
    return .other
  | _ => expressionStatement r

def simpleLine (r : Rules) : Parser (List Stmt) := do
  let first ← simpleStatement r
  let (stmts, _) ← repeatFrom ([first], false) fun (stmts, closed) => do
    if closed then return none
    else if !(← takeSymbol ";") then return none
    else if (← peek).kind == .newline then return some (stmts, true)
    else return some ((← simpleStatement r) :: stmts, false)
  kind .newline
  return stmts.reverse

/-! ## Blocks -/

def block (c : Context) : Parser (List Stmt) := do
  symbol ":"
  if (← peek).kind == .newline then
    advance
    kind .indent
    let body ← c.inner
    kind .dedent
    return body
  else simpleLine c.rules

def elseBlock (c : Context) : Parser (List Stmt) := do
  if ← takeWord "else" then block c else return []

/-! ## Compound statements -/

/-- The condition and block of an `if` or `elif`, latest first. -/
def ifStatement (c : Context) : Parser Stmt := do
  let branch : Parser (Expr × List Stmt) := do
    let test ← c.rules .named
    return (test, ← block c)
  let first ← branch
  let branches ← repeatFrom [first] fun branches => do
    if ← takeWord "elif" then return some ((← branch) :: branches)
      else return none
  let final ← elseBlock c
  match branches with
  | [] => refuse
  | (test, body) :: outer =>
    return outer.foldl (fun inner (test, body) => .ifElse test body [inner])
      (.ifElse test body final)

def forStatement (c : Context) (isAsync : Bool) : Parser Stmt := do
  let target ← c.rules .targets
  word "in"
  let iter ← c.rules .starExpressions
  let body ← block c
  return .forLoop isAsync target iter body (← elseBlock c)

def whileStatement (c : Context) : Parser Stmt := do
  let test ← c.rules .named
  let body ← block c
  return .whileLoop test body (← elseBlock c)

def withItem (r : Rules) : Parser WithItem := do
  let context ← r .expression
  if ← takeWord "as" then return ⟨context, some (← targetRule r)⟩
    else return ⟨context, none⟩

/-- Items in parentheses that reach to the colon, with an
optional last comma. -/
def withItemsInside (r : Rules) : Parser (List WithItem) := do
  symbol "("
  let first ← withItem r
  let items ← repeatFrom [first] fun items => do
    if !(← takeSymbol ",") then return none
    else if ← isSymbol ")" then return none
    else return some ((← withItem r) :: items)
  symbol ")"
  if ← isSymbol ":" then return items.reverse else refuse

def withItems (r : Rules) : Parser (List WithItem) := do
  let first ← withItem r
  let items ← repeatFrom [first] fun items => do
    if ← takeSymbol "," then return some ((← withItem r) :: items)
      else return none
  return items.reverse

def withStatement (c : Context) (isAsync : Bool) : Parser Stmt := do
  let items ← orElse (withItemsInside c.rules) (withItems c.rules)
  return .withBlock isAsync items (← block c)

/-- An `except` clause; `grouped` says whether the clauses before
it had a star. -/
def handler (c : Context) (grouped : Option Bool) :
    Parser (Handler × Bool) := do
  let star ← takeSymbol "*"
  if grouped.any (· != star) then refuse
  let kind ← do
    if star || startsExpression (← peek)
      then pure (some (← c.rules .expression)) else pure none
  let name ← do
    if kind.isNone then pure none
    else if ← takeWord "as" then pure (some (← identifier))
    else pure none
  return (⟨kind, name, ← block c⟩, star)

def tryStatement (c : Context) : Parser Stmt := do
  let body ← block c
  let (handlers, _) ← repeatFrom (([], none) : List Handler × Option Bool)
    fun (handlers, grouped) => do
      if ← takeWord "except" then
        let (h, star) ← handler c grouped
        return some (h :: handlers, some star)
      else return none
  if handlers.isEmpty then
    word "finally"
    return .tryBlock body [] [] (← block c)
  else
    let orelse ← elseBlock c
    let final ← do
      if ← takeWord "finally" then block c else pure []
    return .tryBlock body handlers.reverse orelse final

def functionStatement (c : Context) (pos : Position) (isAsync : Bool)
    (decorators : List Expr) : Parser Stmt := do
  let name ← identifier
  symbol "("
  let params ← parameters c.rules true ")"
  symbol ")"
  let returns ← do
    if ← takeSymbol "->" then pure (some (← c.rules .expression)) else pure none
  let body ← block c
  return .function ⟨pos, isAsync, name, params, body, decorators, returns⟩

def classStatement (c : Context) (pos : Position) (decorators : List Expr) :
    Parser Stmt := do
  let name ← identifier
  let (bases, keywords) ← do
    if ← takeSymbol "(" then arguments c.rules none else pure ([], [])
  let body ← block c
  return .cls ⟨pos, name, bases, keywords, body, decorators⟩

/-- A function or class behind its decorators. -/
def declaration (c : Context) (decorators : List Expr) : Parser Stmt := do
  let t ← peek
  match t.kind with
  | .name "def" =>
    advance
    functionStatement c t.pos false decorators
  | .name "async" =>
    advance
    word "def"
    functionStatement c t.pos true decorators
  | .name "class" =>
    advance
    classStatement c t.pos decorators
  | _ => refuse

def decorated (c : Context) : Parser Stmt := do
  let decorators ← repeatFrom ([] : List Expr) fun ds => do
    if ← takeSymbol "@" then
      let d ← c.rules .named
      kind .newline
      return some (d :: ds)
    else return none
  declaration c decorators.reverse

def caseBlock (c : Context) : Parser Case := do
  word "case"
  casePatterns c.pattern
  let guard ← do
    if ← takeWord "if" then pure (some (← c.rules .named)) else pure none
  return ⟨guard, ← block c⟩

def matchStatement (c : Context) : Parser Stmt := do
  word "match"
  let pos ← position
  let item := orStarred (c.rules .bitOr) (c.rules .named)
  let first ← item
  let (elts, comma) ← rest first item
  if !comma && first.isStarred then refuse
  symbol ":"
  kind .newline
  kind .indent
  let one ← caseBlock c
  let cases ← repeatFrom [one] fun cases => do
    if ← isWord "case" then return some ((← caseBlock c) :: cases)
      else return none
  kind .dedent
  return .choose (if comma then .tuple pos elts else first) cases.reverse

def asyncStatement (c : Context) (pos : Position) : Parser Stmt := do
  match (← peek).kind with
  | .name "def" =>
    advance
    functionStatement c pos true []
  | .name "for" =>
    advance
    forStatement c true
  | .name "with" =>
    advance
    withStatement c true
  | _ => refuse

def statement (c : Context) : Parser (List Stmt) := do
  let t ← peek
  match t.kind with
  | .symbol "@" => return [← decorated c]
  | .name "def" | .name "class" => return [← declaration c []]
  | .name "async" =>
    advance
    return [← asyncStatement c t.pos]
  | .name "if" =>
    advance
    return [← ifStatement c]
  | .name "for" =>
    advance
    return [← forStatement c false]
  | .name "while" =>
    advance
    return [← whileStatement c]
  | .name "with" =>
    advance
    return [← withStatement c false]
  | .name "try" =>
    advance
    return [← tryStatement c]
  | .name "match" =>
    orElse (do return [← matchStatement c]) (simpleLine c.rules)
  | _ => simpleLine c.rules

/-- Statements up to the end of the block, or of the text. -/
def statementsRule (c : Context) : Parser (List Stmt) := do
  let groups ← repeatFrom ([] : List (List Stmt)) fun groups => do
    match (← peek).kind with
    | .dedent | .finish => return none
    | _ => return some ((← statement c) :: groups)
  return groups.reverse.flatten

/-- Statements with this many levels of blocks below them. -/
def statementsAt (r : Rules) (p : Parser Unit) : Nat → Parser (List Stmt)
  | 0 => refuse
  | n + 1 => statementsRule ⟨r, p, statementsAt r p n⟩

end BridgeBindings.Syntax.Grammar
