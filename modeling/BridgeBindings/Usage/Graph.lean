import BridgeBindings.Package.Basic

/-!
# Which structs embed which

An edge leads from a struct to each struct that its fields mention at any depth.
A struct that is added twice has the edges of both. Reachability is a worklist
over such a graph; the list never needs more steps than there are starts and
edges, since a struct's edges are followed once.
-/

namespace BridgeBindings

structure StructGraph where
  nodes : List (StructKey × List StructKey)
  deriving Repr, Inhabited

namespace StructGraph

def empty : StructGraph := ⟨[]⟩

def targets (g : StructGraph) (key : StructKey) : List StructKey :=
  (g.nodes.lookup key).getD []

def addEdges (key : StructKey) (more : List StructKey) :
    List (StructKey × List StructKey) → List (StructKey × List StructKey)
  | [] => [(key, more)]
  | (k, ts) :: rest =>
      if k = key then (k, ts ++ more) :: rest
        else (k, ts) :: addEdges key more rest

/-- Adds a struct and the edges that its fields imply. -/
def add (g : StructGraph) (key : StructKey) (fields : List TypeRef) :
    StructGraph :=
  ⟨addEdges key (fields.flatMap (·.structRefs)) g.nodes⟩

def addStruct (g : StructGraph) (s : Struct) : StructGraph :=
  g.add ⟨s.package, s.name⟩ (s.fields.map (·.type))

/-- Follows a list of structs to be visited, the next one first. -/
def follow (g : StructGraph) (visited : List StructKey) :
    Nat → List StructKey → List StructKey
  | 0, _ => visited
  | _, [] => visited
  | fuel + 1, key :: waiting =>
    if visited.contains key then g.follow visited fuel waiting
    else g.follow (key :: visited) fuel
      (waiting ++ StructKey.sortedSet (g.targets key))

def edgeCount (g : StructGraph) : Nat := (g.nodes.flatMap (·.2)).length

/-- All structs reachable from the starts, the starts included. -/
def reachable (g : StructGraph) (starts : List StructKey) : List StructKey :=
  g.follow [] (starts.length + g.edgeCount + 1) starts

end StructGraph

end BridgeBindings
