import BridgeBindings.Hierarchy
import BridgeBindings.Resolve.Reading
import BridgeBindings.Resolve.Store
import BridgeBindings.Syntax.Print
import BridgeBindings.Syntax.Read
import BridgeBindings.Text.Quoted

/-!
# Annotations

An annotation is read from the outside in. Names of the language and of its
typing modules have types of their own; all other names are left to `named`, and
texts that stand for annotations to `forward`. Arguments are read only where the
type depends on them.
-/

namespace BridgeBindings

open Syntax

/-- Where an annotation stands: the scope that its names belong to, and the
package and the declaration that it is resolved for. -/
structure Site where
  scope : Scope
  owner : String
  declaration : String

def Site.fault (site : Site) (row : Nat) (message : String) : TypeFault where
  message := message
  package := site.scope.package
  path := some site.scope.source.relativePath
  row := some row
  declaration := some site.declaration

/-- What a reading stops with: a fault with a message, or what came in
the way of one. -/
def Site.stop (site : Site) (row : Nat) : Except Breakdown String → Stop
  | .ok message => .fault (site.fault row message)
  | .error b => .broken b

/-! ## What faults say -/

def unsupportedMessage (text : String) : String :=
  "unsupported annotation " ++ Text.quoted text

def undefinedMessage (dotted : String) : String :=
  "name " ++ Text.quoted dotted ++ " is not defined or imported"

def unreadableMessage (text : String) : String :=
  "invalid forward reference " ++ Text.quoted text

/-- Stops at an expression that is no annotation; the message shows its text. -/
def Site.unsupported {α : Type} (site : Site) (e : Expr) : Resolve α :=
  throw (site.stop e.row (e.text.map unsupportedMessage))

/-! ## Names of the language -/

def typingModules : List String :=
  ["typing", "typing_extensions", "collections", "collections.abc", "builtins"]

def bytesNames : List String := ["bytes", "bytearray", "memoryview"]

def anyNames : List String :=
  ["Any", "object", "type", "Type", "Callable", "Awaitable",
    "Coroutine", "TypeVar"]

def sequenceNames : List String :=
  ["list", "List", "Sequence", "MutableSequence", "Iterable", "Iterator",
    "Collection", "set", "Set", "frozenset", "FrozenSet", "AbstractSet",
    "MutableSet", "deque", "Deque"]

def tupleNames : List String := ["tuple", "Tuple"]

def mappingNames : List String :=
  ["dict", "Dict", "Mapping", "MutableMapping", "OrderedDict",
    "DefaultDict", "defaultdict"]

/-- Names that stand for their first argument. -/
def wrapperNames : List String :=
  ["Annotated", "Final", "ClassVar", "Required", "NotRequired", "ReadOnly"]

/-- The part of a dotted name before its last dot, and what follows the dot. -/
def splitLast (dotted : String) : String × String :=
  let back := dotted.toList.reverse
  let last := back.takeWhile (· ≠ '.')
  (String.ofList (back.drop (last.length + 1)).reverse,
    String.ofList last.reverse)

/-- The name that a dotted name has in the language or in a typing module,
unless it is a name of the program. A name that is neither declared nor imported
counts as one of the language. -/
def builtinName (scope : Scope) (dotted : String) : Option String :=
  let (head, rest) := splitHead dotted
  if scope.defines head then none
  else
    match scope.imports.get? head with
    | none => if rest.isEmpty then some dotted else none
    | some binding =>
      let target := binding.qualifiedName
      let (module, name) :=
        splitLast (if rest.isEmpty then target else target ++ "." ++ rest)
      if typingModules.contains module then some name else none

/-- The type of a name that stands without arguments. -/
def builtinType? (name : String) : Option TypeRef :=
  match primitiveNames.lookup name with
  | some p => some (.primitive p)
  | none =>
    if bytesNames.contains name then some (.sequence (.primitive .byte))
    else if anyNames.contains name then some .any
    else if sequenceNames.contains name || tupleNames.contains name then
      some (.sequence .any)
    else if mappingNames.contains name then some (.mapping .any .any)
    else if name = "None" then some .any
    else none

/-- A name of the language without arguments. What a typing module offers beyond
the known names is any type. -/
def builtin (site : Site) (row : Nat) (name dotted : String) :
    Resolve TypeRef :=
  match builtinType? name with
  | some t => return t
  | none =>
    if name ≠ dotted || site.scope.imports.contains name then return .any
    else
      Resolve.stop (site.fault row (undefinedMessage dotted))

/-! ## Reading -/

/-- How names and quoted annotations are resolved; both are told their row. -/
structure Names where
  named : Nat → String → Resolve TypeRef
  forward : Nat → String → Resolve TypeRef

def plain (names : Names) (site : Site) (e : Expr) : Resolve TypeRef :=
  match e.dotted? with
  | none => site.unsupported e
  | some dotted =>
    match builtinName site.scope dotted with
    | some name => builtin site e.row name dotted
    | none => names.named e.row dotted

/-- One argument's type; one that is missing is any type. -/
def argumentType (arguments : List (Resolve Reading)) (index : Nat) :
    Resolve TypeRef :=
  match arguments[index]? with
  | some read => Reading.toType <$> read
  | none => return .any

def readTypes (arguments : List (Resolve Reading)) : Resolve (List TypeRef) :=
  arguments.mapM fun read => Reading.toType <$> read

def isOpenTuple : List Expr → Bool
  | [_, .constant _ .ellipsis] => true
  | _ => false

/-- A name of the language with arguments. -/
def generic (site : Site) (row : Nat) (name dotted : String) (args : List Expr)
    (arguments : List (Resolve Reading)) : Resolve TypeRef := do
  if name = "Optional" then return .pointer (← argumentType arguments 0)
  else if name = "Union" then return unionType (← arguments.mapM id)
  else if wrapperNames.contains name then argumentType arguments 0
  else if name = "Literal" then return commonKind (args.map literalKind)
  else if sequenceNames.contains name then
    return .sequence (← argumentType arguments 0)
  else if tupleNames.contains name then
    if isOpenTuple args then return .sequence (← argumentType arguments 0)
    else return .sequence (Members.single (← readTypes arguments))
  else if mappingNames.contains name then
    let key ← argumentType arguments 0
    return .mapping key (← argumentType arguments 1)
  else builtin site row name dotted

/-- A name with arguments; those of a class of the program do not matter. -/
def applied (names : Names) (site : Site) (e value : Expr) (args : List Expr)
    (arguments : List (Resolve Reading)) : Resolve TypeRef :=
  match value.dotted? with
  | none => site.unsupported e
  | some dotted =>
    match builtinName site.scope dotted with
    | some name => generic site e.row name dotted args arguments
    | none => names.named e.row dotted

mutual

def readExpr (names : Names) (site : Site) : Expr → Resolve Reading
  | .constant _ .none => return .nothing
  | .constant pos (.text text _) =>
    if text = "None" then return .nothing
      else .type <$> names.forward pos.row text
  | .constant _ (.torn ..) => throw (.broken .surrogate)
  | .constant .. => return .type .any
  | .binary _ left .bitOr right => do
    let left ← readExpr names site left
    let right ← readExpr names site right
    return left.join right
  | .subscript pos value (.tuple at_ elts) =>
    .type <$> applied names site
      (.subscript pos value (.tuple at_ elts)) value elts
      (readExprs names site elts)
  | .subscript pos value index =>
    .type <$> applied names site (.subscript pos value index) value [index]
      [readExpr names site index]
  | e => .type <$> plain names site e

def readExprs (names : Names) (site : Site) : List Expr → List (Resolve Reading)
  | [] => []
  | e :: es => readExpr names site e :: readExprs names site es

end

/-- A quoted annotation; its text is read on its own, so its rows
count from one. -/
def readText (named : Nat → String → Resolve TypeRef) (site : Site) :
    Nat → Nat → String → Resolve TypeRef
  | 0, _, _ => throw .exhausted
  | levels + 1, row, text =>
    match readExpression (Text.trim text) with
    | .error _ => Resolve.stop (site.fault row (unreadableMessage text))
    | .ok e => Reading.toType <$> readExpr
        ⟨named, readText named site levels⟩ site e

/-- The type that an annotation stands for. A quoted annotation inside another
is shorter than that, so its length bounds how deep they are. -/
def annotationType (named : Nat → String → Resolve TypeRef)
    (site : Site) (e : Expr) : Resolve TypeRef :=
  Reading.toType <$>
    readExpr ⟨named, fun row text =>
      readText named site (text.length + 1) row text⟩ site e

end BridgeBindings
