import BridgeBindings.Bridge.ObjectClass
import BridgeBindings.Config.Basic
import BridgeBindings.Resolve.Class

/-!
# The exposed surface

The public methods of the objects that the entry file binds to the bridge. The
methods of a class are its own and those of its bases in the program; a class
whose signatures do not resolve exposes none of them.
-/

namespace BridgeBindings

open Syntax

structure Surface where
  bridge : Bridge
  entryPackage : Option String := none
  boundStructs : List String := []
  methods : List BoundMethod := []
  deriving Repr, Inhabited

def Surface.isEmpty (s : Surface) : Bool := s.methods.isEmpty

/-! ## The methods of a class -/

namespace Symbols

/-- A class and its bases that have not been seen, most basic first. -/
def chainAt (t : Symbols) : Nat → List String → ProgramClass →
    List ProgramClass × List String
  | 0, seen, _ => ([], seen)
  | levels + 1, seen, c =>
    if seen.contains c.qualifiedName then ([], seen)
    else
      let (chain, seen) := (t.bases c).foldl
        (fun (chain, seen) b =>
          let (more, seen) := t.chainAt levels seen b
          (chain ++ more, seen))
        ([], c.qualifiedName :: seen)
      (chain ++ [c], seen)

/-- A class and its bases in the program, each once, most basic first. -/
def classChain (t : Symbols) (c : ProgramClass) : List ProgramClass :=
  (t.chainAt t.levels [] c).1

/-- The parameters that a caller fills in. -/
def callerParams (f : FunctionDef) : List Param :=
  let positional := f.params.positionalOnly ++ f.params.positional
  (if f.isStatic then positional else positional.drop 1) ++ f.params.keywordOnly

def returnsNothing (f : FunctionDef) : Bool :=
  match f.returns with
  | some (.constant _ .none) => true
  | _ => false

/-- What a parameter of a method of a bound class is called in faults. -/
def paramLabel (owner : StructKey) (f : FunctionDef) (p : Param) : String :=
  owner.name ++ "." ++ f.name ++ "(" ++ p.name ++ ")"

def resultLabel (owner : StructKey) (f : FunctionDef) : String :=
  owner.name ++ "." ++ f.name ++ " -> result"

/-- Describes a method that a class declares, bound under the name of another
class. -/
def describe (t : Symbols) (declarer : ProgramClass) (owner : StructKey)
    (f : FunctionDef) : Resolve BoundMethod := do
  let site (declaration : String) : Site :=
    ⟨declarer.scope, owner.package, declaration⟩
  let params ← (callerParams f).mapM fun p =>
    return MethodParam.mk p.name
      (← t.annotation? (site (paramLabel owner f p)) p.typeExpr)
  let result ←
    if returnsNothing f then pure none
    else some <$> t.annotation? (site (resultLabel owner f)) f.returns
  return ⟨owner.package, owner.name, f.name, params, result,
    declarer.scope.source.notes.functionDoc f, f.isAsync⟩

/-- Describes the public methods of one class of a chain, once all their
decorators are named. -/
def describeAll (t : Symbols) (owner : StructKey) (methods : Table BoundMethod)
    (d : ProgramClass) : Resolve (Table BoundMethod) := do
  Resolve.expect d.decl.methodBreakdown?
  d.decl.publicMethods.foldlM
    (fun methods f => return methods.insert f.name (← t.describe d owner f))
      methods

/-- The public methods of a bound class, by name. All of them are described
before the first is added to the package. -/
def boundMethods (t : Symbols) (c : ProgramClass) :
    Resolve (List BoundMethod) := do
  let collected ← (t.classChain c).foldlM (t.describeAll c.key) .empty
  let methods :=
    (collected.entries.mergeSort fun a b => decide (a.1 ≤ b.1)).map (·.2)
  for m in methods do
    Resolve.changeDraft c.package (·.addMethod m)
  return methods

end Symbols

/-! ## Scanning -/

/-- A surface in the making, with the failures so far. -/
structure SurfaceScan where
  seen : List String := []
  boundStructs : List String := []
  methods : List BoundMethod := []
  failures : Table TypeFault := .empty

def unknownObject (entry : Source) (row : Nat) (text : String) : LogRecord :=
  ⟨.warning, .surface, entry.relativePath ++ ":" ++ toString row ++
    ": cannot determine the class of bound object " ++ text ++ "; skipping"⟩

/-- Takes one bound object into account. -/
def SurfaceScan.add (t : Symbols) (entry : Source) (scope : Scope)
    (calls : BridgeCalls) (scan : SurfaceScan) (e : Expr) :
    Resolve SurfaceScan := do
  match t.classOf scope calls e with
  | none =>
    Resolve.note (unknownObject entry e.row (← Resolve.lift e.text))
    return scan
  | some c =>
    if scan.seen.contains c.qualifiedName then return scan
    else
      let scan := { scan with seen := c.qualifiedName :: scan.seen }
      match ← (t.boundMethods c).attempt with
      | .ok methods =>
        return { scan with
          boundStructs := scan.boundStructs ++ [c.key.text]
          methods := scan.methods ++ methods }
      | .error f =>
        Resolve.note ⟨.error, .surface, f.text⟩
        return { scan with failures := scan.failures.insertNew c.package f }

/-- How the entry file talks to the bridge. -/
def bridgeOf (t : Symbols) (config : Config) (entry : Option Source) : Bridge :=
  let base : Bridge :=
    { bridgeModule := config.bridgeModule
      bindMethods := config.bindMethods
      bindKeyword := config.bindKeyword }
  match entry with
  | some e =>
    if e.tree.hasStartup then
      { base with
        entryModule := some e.module
        localName :=
          (t.scope? e.module).bind (bridgeAlias? · config.bridgeModule) }
    else base
  | none => base

def noStartup : LogRecord :=
  ⟨.info, .surface,
    "No startup declaration found; the exposed surface is empty"⟩

def noBridge (entry : Source) (bridgeModule : String) : LogRecord :=
  ⟨.info, .surface, "Entry file " ++ entry.relativePath ++
    " does not import " ++ bridgeModule ++ "; the exposed surface is empty"⟩

def exposedCount (methods objects : Nat) : LogRecord :=
  ⟨.info, .surface, "Exposed " ++ toString methods ++ " methods on " ++
    toString objects ++ " bound objects"⟩

/-- The surface of a program, and the packages whose bound classes failed. -/
def scanSurface (t : Symbols) (config : Config) (entry : Option Source) :
    Resolve (Surface × Table TypeFault) := do
  let bridge := bridgeOf t config entry
  match entry, bridge.entryModule with
  | some entry, some _ =>
    let surface : Surface := { bridge, entryPackage := some entry.package }
    match bridge.localName, t.scope? entry.module with
    | some _, some scope =>
      let calls := BridgeCalls.collect bridge entry.tree
      let scan ← calls.bound.foldlM (SurfaceScan.add t entry scope calls) {}
      let methods := scan.methods.mergeSort fun a b =>
        decide (a.qualifiedName ≤ b.qualifiedName)
      Resolve.note (exposedCount methods.length scan.boundStructs.length)
      return ({ surface with
        boundStructs := sortNames scan.boundStructs, methods }, scan.failures)
    | _, _ =>
      Resolve.note (noBridge entry bridge.bridgeModule)
      return (surface, .empty)
  | _, _ =>
    Resolve.note noStartup
    return ({ bridge }, .empty)

end BridgeBindings
