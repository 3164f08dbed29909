import BridgeBindings.Text.CodePoint

/-!
# The syntax tree of a module

What a module's source text says, kept as far as the analysis reads it. Every
expression knows where it starts; of the statements only declarations and
assignments do, and only an assignment knows on which row it ends. The patterns
of a `match` statement are checked when the text is read and then dropped:
nothing inside a pattern declares, calls or assigns.
-/

namespace BridgeBindings.Syntax

/-- Rows count from one, columns from zero and in bytes. -/
structure Position where
  row : Nat
  column : Nat
  deriving DecidableEq, Repr, Inhabited

structure Span where
  start : Position
  lastRow : Nat
  deriving DecidableEq, Repr, Inhabited

/-- A literal. Floating-point and imaginary numbers are kept as the shortest
text that reads back as the same number. -/
inductive Constant where
  | none
  | true
  | false
  | ellipsis
  | integer (value : Nat)
  | float (text : String)
  | imaginary (text : String)
  | text (value : String) (marked : Bool)
  | torn (value : TornText) (marked : Bool)
  | bytes (value : List UInt8)
  deriving DecidableEq, Repr, Inhabited

def Constant.ofText (value : CodeText) (marked : Bool) : Constant :=
  match h : value.string? with
  | .some s => .text s marked
  | .none => .torn ⟨value, h⟩ marked

inductive BoolOp where
  | and | or
  deriving DecidableEq, Repr, Inhabited

inductive BinaryOp where
  | add | sub | mul | matMul | div | mod | pow | shiftLeft | shiftRight
  | bitOr | bitXor | bitAnd | floorDiv
  deriving DecidableEq, Repr, Inhabited

inductive UnaryOp where
  | invert | not | plus | minus
  deriving DecidableEq, Repr, Inhabited

inductive CompareOp where
  | eq | notEq | lt | ltEq | gt | gtEq | is | isNot | in | notIn
  deriving DecidableEq, Repr, Inhabited

/-- What a comprehension without keys builds. -/
inductive ComprehensionKind where
  | list | set | generator
  deriving DecidableEq, Repr, Inhabited

mutual

inductive Expr where
  | constant (pos : Position) (value : Constant)
  | name (pos : Position) (id : String)
  | attribute (pos : Position) (value : Expr) (attr : String)
  | subscript (pos : Position) (value index : Expr)
  | starred (pos : Position) (value : Expr)
  | call (pos : Position) (func : Expr) (args : List Expr)
      (keywords : List Keyword)
  | bool (pos : Position) (op : BoolOp) (values : List Expr)
  | binary (pos : Position) (left : Expr) (op : BinaryOp) (right : Expr)
  | unary (pos : Position) (op : UnaryOp) (operand : Expr)
  | compare (pos : Position) (left : Expr) (ops : List CompareOp)
      (comparators : List Expr)
  | named (pos : Position) (target value : Expr)
  | lambda (pos : Position) (params : Parameters) (body : Expr)
  | conditional (pos : Position) (test body orelse : Expr)
  | dict (pos : Position) (items : List DictItem)
  | set (pos : Position) (elts : List Expr)
  | list (pos : Position) (elts : List Expr)
  | tuple (pos : Position) (elts : List Expr)
  | comprehension (pos : Position) (kind : ComprehensionKind) (elt : Expr)
      (clauses : List Clause)
  | dictComprehension (pos : Position) (key value : Expr)
      (clauses : List Clause)
  | await (pos : Position) (value : Expr)
  | yield (pos : Position) (value : Option Expr)
  | yieldFrom (pos : Position) (value : Expr)
  | joined (pos : Position) (parts : List Expr)
  | formatted (pos : Position) (value : Expr) (conversion : Option Char)
      (spec : Option Expr)
  | slice (pos : Position) (lower upper step : Option Expr)

/-- A keyword argument; without a name it spreads a mapping. -/
structure Keyword where
  arg : Option String
  value : Expr

/-- An entry of a dictionary display; without a key it spreads a mapping. -/
structure DictItem where
  key : Option Expr
  value : Expr

structure Clause where
  isAsync : Bool
  target : Expr
  iter : Expr
  conditions : List Expr

structure Param where
  name : String
  typeExpr : Option Expr
  default : Option Expr

structure Parameters where
  positionalOnly : List Param
  positional : List Param
  rest : Option Param
  keywordOnly : List Param
  keywordRest : Option Param

end

structure WithItem where
  context : Expr
  target : Option Expr

/-- An imported name and what it is called from then on. -/
structure ImportName where
  name : String
  asName : Option String
  deriving DecidableEq, Repr

mutual

inductive Stmt where
  | function (decl : FunctionDef)
  | cls (decl : ClassDef)
  | returns (value : Option Expr)
  | delete (targets : List Expr)
  | assign (span : Span) (targets : List Expr) (value : Expr)
  | augAssign (target : Expr) (op : BinaryOp) (value : Expr)
  | annAssign (span : Span) (target typeExpr : Expr) (value : Option Expr)
  | forLoop (isAsync : Bool) (target iter : Expr) (body orelse : List Stmt)
  | whileLoop (test : Expr) (body orelse : List Stmt)
  | ifElse (test : Expr) (body orelse : List Stmt)
  | withBlock (isAsync : Bool) (items : List WithItem) (body : List Stmt)
  | choose (subject : Expr) (cases : List Case)
  | raise (exc cause : Option Expr)
  | tryBlock (body : List Stmt) (handlers : List Handler)
      (orelse final : List Stmt)
  | assert (test : Expr) (message : Option Expr)
  | importModules (names : List ImportName)
  | importFrom (module : Option String) (level : Nat) (names : List ImportName)
  | expr (value : Expr)
  | other

structure FunctionDef where
  pos : Position
  isAsync : Bool
  name : String
  params : Parameters
  body : List Stmt
  decorators : List Expr
  returns : Option Expr

structure ClassDef where
  pos : Position
  name : String
  bases : List Expr
  keywords : List Keyword
  body : List Stmt
  decorators : List Expr

structure Handler where
  kind : Option Expr
  name : Option String
  body : List Stmt

/-- A case of a `match` statement, without its pattern. -/
structure Case where
  guard : Option Expr
  body : List Stmt

end

structure Module where
  body : List Stmt

/-! ## Where expressions start -/

def Expr.pos : Expr → Position
  | .constant p .. | .name p .. | .attribute p .. | .subscript p .. |
      .starred p .. | .call p ..
  | .bool p .. | .binary p .. | .unary p .. | .compare p .. |
      .named p .. | .lambda p ..
  | .conditional p .. | .dict p .. | .set p .. | .list p .. | .tuple p .. |
      .comprehension p ..
  | .dictComprehension p .. | .await p .. | .yield p .. |
      .yieldFrom p .. | .joined p ..
  | .formatted p .. | .slice p .. => p

def Expr.row (e : Expr) : Nat := e.pos.row

def Expr.isStarred : Expr → Bool
  | .starred .. => true
  | _ => false

def Expr.isNamed : Expr → Bool
  | .named .. => true
  | _ => false

end BridgeBindings.Syntax
