import BridgeBindings.TypeRef

/-!
# Readings

What an annotation reads as: a type, nothing at all, or a union that may go on
in the annotation around it. A union of one type is that type, of several any
type; with nothing among its members it is a pointer.
-/

namespace BridgeBindings

/-- The types of a union's members, and whether nothing is among these. -/
structure Members where
  types : List TypeRef
  optional : Bool
  deriving DecidableEq, Repr, Inhabited

namespace Members

def append (a b : Members) : Members :=
  ⟨a.types ++ b.types, a.optional || b.optional⟩

/-- The one type that a list of types holds, if it holds one only. -/
def single : List TypeRef → TypeRef
  | t :: rest => if rest.all (· = t) then t else .any
  | [] => .any

def type (m : Members) : TypeRef :=
  if m.optional then .pointer (single m.types) else single m.types

end Members

inductive Reading where
  | type (t : TypeRef)
  | nothing
  | union (m : Members)
  deriving DecidableEq, Repr, Inhabited

namespace Reading

def toType : Reading → TypeRef
  | .type t => t
  | .nothing => .any
  | .union m => m.type

/-- What a reading adds to a union that it is a side of. -/
def side : Reading → Members
  | .type t => ⟨[t], false⟩
  | .nothing => ⟨[], true⟩
  | .union m => m

/-- What a reading adds to a union that it is an argument of: a union in there
counts as one type. -/
def argument : Reading → Members
  | .nothing => ⟨[], true⟩
  | r => ⟨[r.toType], false⟩

def join (a b : Reading) : Reading := .union (a.side.append b.side)

end Reading

/-- The type of a union of these readings. -/
def unionType (readings : List Reading) : TypeRef :=
  ((readings.map Reading.argument).foldl Members.append ⟨[], false⟩).type

end BridgeBindings
