import BridgeBindings.Table
import BridgeBindings.Text.CodePoint
import BridgeBindings.TypeRef

/-!
# Packages

A package as it is handed to the writer of bindings: its structs, the packages
and foreign types that they mention, which of them cross the bridge as data, and
the methods bound to the bridge.
-/

namespace BridgeBindings

structure StructField where
  name : String
  type : TypeRef
  comments : List CodeText
  deriving DecidableEq, Repr, Inhabited

structure Struct where
  package : String
  module : String
  name : String
  fields : List StructField
  comments : List CodeText
  deriving DecidableEq, Repr, Inhabited

/-- The comments of a struct and of its fields. -/
def Struct.allComments (s : Struct) : List CodeText :=
  s.comments ++ s.fields.flatMap (·.comments)

def Struct.qualifiedName (s : Struct) : String := s.package ++ "." ++ s.name

structure MethodParam where
  name : String
  type : TypeRef
  deriving DecidableEq, Repr, Inhabited

/-- A method that the front end may call; without a result it
answers nothing. -/
structure BoundMethod where
  package : String
  structName : String
  name : String
  params : List MethodParam
  result : Option TypeRef
  comments : List CodeText
  isAsync : Bool
  deriving DecidableEq, Repr, Inhabited

def BoundMethod.qualifiedName (m : BoundMethod) : String :=
  m.package ++ "." ++ m.structName ++ "." ++ m.name

structure Package where
  name : String
  isRoot : Bool
  structs : Table Struct
  references : List String
  unresolved : List String
  usedAsData : List String
  methods : List BoundMethod
  deriving Repr, Inhabited

namespace Package

def isData (p : Package) (name : String) : Bool := p.usedAsData.contains name

def sortedStructs (p : Package) : List (String × Struct) :=
  p.structs.entries.mergeSort fun a b => decide (a.1 ≤ b.1)

/-- The structs that cross the bridge as data, by name. -/
def dataStructs (p : Package) : List Struct :=
  (p.sortedStructs.filter fun (name, _) => p.isData name).map (·.2)

/-- The structs that stay behind the bridge, by name. -/
def internalStructs (p : Package) : List Struct :=
  (p.sortedStructs.filter fun (name, _) => !p.isData name).map (·.2)

/-- The bound methods of each class that has any, classes and
methods by name. -/
def services (p : Package) : List (String × List BoundMethod) :=
  (sortedSet (p.methods.map (·.structName))).map fun service =>
    (service, (p.methods.filter (·.structName = service)).mergeSort
      fun a b => decide (a.name ≤ b.name))

end Package

end BridgeBindings
