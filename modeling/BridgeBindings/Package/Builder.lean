import BridgeBindings.Package.Draft

/-!
# Builders

A builder makes one package and refuses further changes once it is built. It can
be built only when no placeholder is left.
-/

namespace BridgeBindings

structure Builder where
  draft : Draft
  built : Option Package := none
  deriving Repr, Inhabited

/-- Why a builder refuses. -/
inductive BuildFault where
  | finalized (package : String)
  | placeholders (package : String) (names : List String)
  | unknownStruct (name : String)
  deriving DecidableEq, Repr, Inhabited

def BuildFault.text : BuildFault → String
  | .finalized package => "package " ++ package ++ " is already finalized"
  | .placeholders package names =>
    "package " ++ package ++ " has unresolved placeholders: " ++
      ", ".intercalate names
  | .unknownStruct name => "no struct is registered as " ++ name

/-- What is done with a builder: whether it is refused or not, there is a
builder afterwards. -/
abbrev Building (α : Type) := ExceptT BuildFault (StateM Builder) α

namespace Building

/-- Refuses when the package is built. -/
def checkOpen : Building Unit := do
  match (← get).built with
  | some _ => throw (.finalized (← get).draft.name)
  | none => return ()

def change (f : Draft → Draft) : Building Unit :=
  modify fun b => { b with draft := f b.draft }

/-- The struct of a name, registered as a placeholder if need be. A name that is
taken is answered from what it was registered for, also when all is built. -/
def register (name module : String) (comments : List CodeText) :
    Building Struct := do
  match (← get).draft.get? name with
  | some s => return s
  | none =>
    checkOpen
    change (·.register name module comments)
    return (← get).draft.placeholder name module comments

def complete (name : String) (fields : List StructField) : Building Struct := do
  checkOpen
  match (← get).draft.get? name with
  | none => throw (.unknownStruct name)
  | some s =>
    change (·.complete name fields)
    return { s with fields := fields }

/-- A package does not refer to itself, built or not. -/
def addReference (package : String) : Building Unit := do
  if package = (← get).draft.name then
    return ()
  else
    checkOpen
    change (·.addReference package)

def addUnresolved (qualifiedName : String) : Building Unit := do
  checkOpen
  change (·.addUnresolved qualifiedName)

def markUsedAsData (name : String) : Building Unit := do
  checkOpen
  change (·.markUsedAsData name)

def addMethod (m : BoundMethod) : Building Unit := do
  checkOpen
  change (·.addMethod m)

/-- The package, frozen at the first call. -/
def build : Building Package := do
  match (← get).built with
  | some p => return p
  | none =>
    match (← get).draft.pending with
    | [] =>
      let p := (← get).draft.freeze
      modify fun b => { b with built := some p }
      return p
    | names => throw (.placeholders (← get).draft.name names)

end Building

end BridgeBindings
