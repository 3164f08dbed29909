/-!
# Type descriptors

What a declared type comes to, without the language it was written in. A struct
of the program is named by its package and its own name and never contained, so
structs that mention each other are plain data. A type of another program is
known by its qualified name only.
-/

namespace BridgeBindings

inductive Primitive where
  | boolean | integer | float | string | byte
  deriving DecidableEq, Repr, Inhabited

def Primitive.text : Primitive → String
  | .boolean => "boolean"
  | .integer => "integer"
  | .float => "float"
  | .string => "string"
  | .byte => "byte"

def Primitive.all : List Primitive :=
  [.boolean, .integer, .float, .string, .byte]

def Primitive.ofText? (text : String) : Option Primitive :=
  all.find? (·.text = text)

/-- Where a struct of the program is: its package and its name there. -/
structure StructKey where
  package : String
  name : String
  deriving DecidableEq, Repr, Inhabited

namespace StructKey

def text (k : StructKey) : String := k.package ++ "." ++ k.name

/-- By package and then by name, in the order of their characters' numbers. -/
def le (a b : StructKey) : Bool :=
  a.package < b.package || (a.package = b.package && a.name ≤ b.name)

/-- Keys in order, each once. -/
def sortedSet (keys : List StructKey) : List StructKey :=
  (keys.mergeSort le).eraseReps

end StructKey

inductive TypeRef where
  | primitive (p : Primitive)
  | struct (key : StructKey)
  | external (qualifiedName : String)
  | pointer (elem : TypeRef)
  | sequence (elem : TypeRef)
  | mapping (key elem : TypeRef)
  | any
  deriving DecidableEq, Repr, Inhabited

namespace TypeRef

/-- The structs of the program that a descriptor mentions, from
left to right. -/
def structRefs : TypeRef → List StructKey
  | .struct key => [key]
  | .pointer elem | .sequence elem => elem.structRefs
  | .mapping key elem => key.structRefs ++ elem.structRefs
  | .primitive _ | .external _ | .any => []

def text : TypeRef → String
  | .primitive p => p.text
  | .struct key => key.text
  | .external name => name
  | .pointer elem => "*" ++ elem.text
  | .sequence elem => "[]" ++ elem.text
  | .mapping key elem => "map[" ++ key.text ++ "]" ++ elem.text
  | .any => "any"

end TypeRef

end BridgeBindings
