import BridgeBindings.Syntax.Name
import BridgeBindings.Syntax.Print
import BridgeBindings.Syntax.Walk

/-!
# Declarations

What a class says about itself: whether it is a record, which fields it declares
and which methods it offers. A record is marked by a decorator, by a base or by
having fields.
-/

namespace BridgeBindings

open Syntax

def recordDecorators : List String :=
  ["dataclass", "dataclasses.dataclass", "attr.s", "attr.attrs", "attrs.define",
    "attrs.frozen", "attr.define", "attr.frozen"]

def recordBases : List String :=
  ["BaseModel", "pydantic.BaseModel", "TypedDict", "typing.TypedDict",
    "typing_extensions.TypedDict", "NamedTuple", "typing.NamedTuple"]

/-- A decorator's name is that of what it applies; one without a name
has its text. -/
def decoratorName (d : Expr) : Except Breakdown String :=
  let target := match d with
    | .call _ func _ _ => func
    | _ => d
  match target.dotted? with
  | some name => .ok name
  | none => d.text

/-- The names of decorators, less those that have none. -/
def namesOf (decorators : List Expr) : List String :=
  decorators.filterMap fun d => (decoratorName d).toOption

/-- What comes in the way of naming decorators. -/
def namingBreakdown? (decorators : List Expr) : Option Breakdown :=
  decorators.findSome? fun d =>
    match decoratorName d with
    | .ok _ => none
    | .error b => some b

/-- An annotated public name in the body of a class. -/
structure FieldDecl where
  span : Span
  name : String
  typeExpr : Expr

def isPublic (name : String) : Bool := !(name.toList.head? = some '_')

/-- Whether an annotation says that a name belongs to the class as a whole. -/
def isClassWide (typeExpr : Expr) : Bool :=
  let target := match typeExpr with
    | .subscript _ value _ => value
    | _ => typeExpr
  match target.dotted? with
  | some name => name = "ClassVar" || name = "typing.ClassVar"
  | none =>
    match typeExpr.shownText? with
    | some text =>
        text.startsWith "ClassVar" || text.startsWith "typing.ClassVar"
    | none => false

def FieldDecl.ofStmt? : Stmt → Option FieldDecl
  | .annAssign span (.name _ id) typeExpr _ =>
    if isPublic id && !isClassWide typeExpr
      then some ⟨span, id, typeExpr⟩ else none
  | _ => none

end BridgeBindings

namespace BridgeBindings.Syntax.ClassDef

open BridgeBindings

def fields (c : ClassDef) : List FieldDecl := c.body.filterMap FieldDecl.ofStmt?

def decoratorNames (c : ClassDef) : List String := namesOf c.decorators

/-- Whether a class is a record by what stands in its own declaration. -/
def isRecord (c : ClassDef) : Bool :=
  c.decoratorNames.any recordDecorators.contains ||
    c.bases.any (fun b => b.dotted?.any recordBases.contains) ||
      !c.fields.isEmpty

end BridgeBindings.Syntax.ClassDef

namespace BridgeBindings.Syntax.FunctionDef

open BridgeBindings

def decoratorNames (f : FunctionDef) : List String := namesOf f.decorators

def isStatic (f : FunctionDef) : Bool :=
  f.decoratorNames.contains "staticmethod"

/-- Whether a function is read and written like an attribute. -/
def isProperty (f : FunctionDef) : Bool :=
  f.decoratorNames.any fun d =>
    d = "property" || d.endsWith ".setter" || d.endsWith ".getter" ||
      d.endsWith ".deleter"

end BridgeBindings.Syntax.FunctionDef

namespace BridgeBindings.Syntax

open BridgeBindings

/-- The methods that a class offers to others. -/
def ClassDef.publicMethods (c : ClassDef) : List FunctionDef :=
  c.body.filterMap fun
    | .function f => if isPublic f.name && !f.isProperty then some f else none
    | _ => none

/-- What comes in the way of finding the methods of a class: the decorators of
every function with a public name are looked at. -/
def ClassDef.methodBreakdown? (c : ClassDef) : Option Breakdown :=
  c.body.findSome? fun
    | .function f =>
        if isPublic f.name then namingBreakdown? f.decorators else none
    | _ => none

/-- Whether a comparison asks if the module is run as the program. -/
def isMainTest : Expr → Bool
  | .compare _ left _ comparators =>
    let operands := left :: comparators
    operands.any (fun e => match e with
      | .name _ id => id = "__name__"
      | _ => false) &&
      operands.any (fun e => e.text? = some "__main__")
  | _ => false

/-- Whether a module says how the program starts. -/
def Module.hasStartup (m : Module) : Bool :=
  m.body.any fun
    | .function f => f.name = "main"
    | .ifElse test _ _ => isMainTest test
    | _ => false

end BridgeBindings.Syntax
