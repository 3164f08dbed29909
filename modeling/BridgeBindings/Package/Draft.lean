import BridgeBindings.Package.Basic

/-!
# Packages in the making

Structs are registered as empty placeholders first and get their fields once
these are resolved. Whoever registers a name first keeps it.
-/

namespace BridgeBindings

structure Draft where
  name : String
  isRoot : Bool := false
  structs : Table Struct := .empty
  /-- The structs that have their fields, latest first, as are
  the other names. -/
  resolved : List String := []
  references : List String := []
  unresolved : List String := []
  usedAsData : List String := []
  /-- By qualified name. -/
  methods : Table BoundMethod := .empty
  deriving Repr, Inhabited

namespace Draft

def get? (d : Draft) (name : String) : Option Struct := d.structs.get? name

/-- Whether a struct is registered under this name for a class
of this module. -/
def owns (d : Draft) (name module : String) : Bool :=
  (d.get? name).any (·.module = module)

def isResolved (d : Draft) (name : String) : Bool := d.resolved.contains name

def placeholder (d : Draft) (name module : String) (comments : List CodeText) :
    Struct :=
  ⟨d.name, module, name, [], comments⟩

/-- Registers a placeholder, unless the name is taken. -/
def register (d : Draft) (name module : String) (comments : List CodeText) :
    Draft :=
  { d with structs := d.structs.insertNew name
             (d.placeholder name module comments) }

/-- Gives a registered struct its fields. -/
def complete (d : Draft) (name : String) (fields : List StructField) : Draft :=
  match d.get? name with
  | some s =>
    { d with structs := d.structs.insert name { s with fields := fields }
             resolved := name :: d.resolved }
  | none => d

def resolvedNames (d : Draft) : List String := sortedSet d.resolved

/-- The registered structs that still wait for their fields, by name. -/
def pending (d : Draft) : List String :=
  sortedSet (d.structs.keys.filter (!d.isResolved ·))

def addReference (d : Draft) (package : String) : Draft :=
  if package = d.name then d
    else { d with references := package :: d.references }

def addUnresolved (d : Draft) (qualifiedName : String) : Draft :=
  { d with unresolved := qualifiedName :: d.unresolved }

def markUsedAsData (d : Draft) (name : String) : Draft :=
  { d with usedAsData := name :: d.usedAsData }

def addMethod (d : Draft) (m : BoundMethod) : Draft :=
  { d with methods := d.methods.insert m.qualifiedName m }

/-- The package as it stands, with all its parts in order. -/
def freeze (d : Draft) : Package where
  name := d.name
  isRoot := d.isRoot
  structs := ⟨d.structs.entries.mergeSort fun a b => decide (a.1 ≤ b.1)⟩
  references := sortedSet d.references
  unresolved := sortedSet d.unresolved
  usedAsData := sortedSet d.usedAsData
  methods := (d.methods.entries.mergeSort fun a b =>
    decide (a.1 ≤ b.1)).map (·.2)

end Draft

end BridgeBindings
