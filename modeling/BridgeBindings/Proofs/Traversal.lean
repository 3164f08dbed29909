import BridgeBindings.Proofs.Samples
import BridgeBindings.Syntax.Walk
import Mathlib.Data.List.Infix
import Mathlib.Data.List.Nodup

/-!
# A walk is a recursive traversal

A walk keeps a list of the nodes that wait and puts the parts of a node in front
of it. The recursion keeps no list: it visits a node, goes through its parts if
the visitor wants it to, and comes back. Both ask the visitor the same questions
in the same order, whatever the answers depend on, since the nodes in front of
the list are all dealt with before those behind them: what the walk does with
them is the recursion, whatever waits behind.

Equal nodes can stand at several places of a tree, so which node is visited is
told by its place. A place is visited exactly if it is where the traversal
starts or one of the parts of a place that has been gone into, and no two visits
are to the same place.
-/

namespace BridgeBindings.Syntax

/-! ## Places -/

/-- A node and where it stands below another one: by the positions of the parts
on the way down, the last one first. -/
structure Place where
  path : List Nat
  node : Node

/-- The parts of the node at a place, from left to right. -/
def Place.parts (a : Place) : List Place :=
  a.node.children.mapIdx fun i part => ⟨i :: a.path, part⟩

/-- The node at the end of a path. -/
def Node.at? (n : Node) : List Nat → Option Node
  | [] => some n
  | i :: path => (n.at? path).bind (·.children[i]?)

namespace Place

variable {a b : Place}

theorem map_node_parts (a : Place) :
    a.parts.map (·.node) = a.node.children := by
  refine List.ext_getElem? fun i => ?_
  simp [parts, Function.comp_def]

theorem mem_parts : b ∈ a.parts ↔ ∃ i, a.node.children[i]? = some b.node ∧
    b.path = i :: a.path := by
  unfold parts
  rw [List.mem_mapIdx]
  constructor
  · rintro ⟨i, hi, rfl⟩
    exact ⟨i, List.getElem?_eq_getElem hi, rfl⟩
  · rintro ⟨i, hnode, hpath⟩
    obtain ⟨hi, hnode⟩ := List.getElem?_eq_some_iff.mp hnode
    exact ⟨i, hi, by rw [hnode, ← hpath]⟩

/-- Places are gone through from the top down: what holds of no places, and
of places if it holds of the parts of the first one and of the others, holds
of all places. -/
theorem induct {motive : List Place → Prop} (nil : motive [])
    (cons : ∀ a rest, motive a.parts → motive rest → motive (a :: rest)) :
    ∀ places, motive places
  | [] => nil
  | a :: rest => cons a rest (induct nil cons a.parts) (induct nil cons rest)
termination_by places => Node.total (places.map (·.node))
decreasing_by
  · have := a.node.total_children_lt
    rw [List.map_cons, Node.total_cons, map_node_parts]
    omega
  · have := a.node.size_pos
    rw [List.map_cons, Node.total_cons]
    omega

end Place

/-! ## The recursion -/

/-- A visit to a place, and whether the visitor wants to go on inside. -/
structure Visit where
  place : Place
  inside : Bool

mutual

/-- Visits the node at a place and, if the visitor wants to go on inside,
traverses its parts. -/
def Visitor.traverse {σ : Type} (v : Visitor σ) (a : Place) (s : σ) :
    List Visit × σ :=
  let (inside, s) := v.visit a.node s
  if inside then
    let (below, s) := v.traverseAll a.parts s
    (⟨a, true⟩ :: below, s)
  else ([⟨a, false⟩], s)
termination_by 2 * a.node.size
decreasing_by
  have := a.node.total_children_lt
  rw [Place.map_node_parts]
  omega

/-- Traverses places one after the other. -/
def Visitor.traverseAll {σ : Type} (v : Visitor σ) :
    List Place → σ → List Visit × σ
  | [], s => ([], s)
  | a :: rest, s =>
    let (first, s) := v.traverse a s
    let (others, s) := v.traverseAll rest s
    (first ++ others, s)
termination_by places => 2 * Node.total (places.map (·.node)) + 1
decreasing_by
  · rw [List.map_cons, Node.total_cons]
    omega
  · have := a.node.size_pos
    rw [List.map_cons, Node.total_cons]
    omega

end

namespace Visitor

variable {σ : Type} {v : Visitor σ} {a : Place} {s : σ}

end Visitor

/-! ## The questions -/

/-- Whether visitors are asked about a node. -/
def Node.isAsked : Node → Bool
  | .stmt (.cls _) | .stmt (.function _) | .stmt (.assign ..) | .stmt
      (.annAssign ..)
  | .expr (.call ..) => true
  | _ => false

/-- The node of an assignment. -/
def Assignment.node : Assignment → Node
  | .plain span targets value => .stmt (.assign span targets value)
  | .annotated span target typeExpr value =>
      .stmt (.annAssign span target typeExpr value)

/-- What a record gets when a node is visited. -/
def Visit.asked (x : Visit) : List (Node × Bool) :=
  if x.place.node.isAsked then [(x.place.node, x.inside)] else []

namespace Visitor

variable {σ : Type} {v : Visitor σ} {a : Place} {n : Node} {s : σ}

end Visitor

/-! ## Which places are visited -/

namespace Place

variable {a b c : Place}

/-- One place stands below another one: the way to it goes on from there. -/
def Below (a b : Place) : Prop := b.path <:+ a.path ∧ b.path ≠ a.path

/-- Neither of two places is on the way to the other. -/
def Apart (a b : Place) : Prop := ¬a.path <:+ b.path ∧ ¬b.path <:+ a.path

end Place

/-- A place of the tree below a node. -/
def Node.Has (n : Node) (a : Place) : Prop := n.at? a.path = some a.node

namespace Node.Has

variable {n : Node} {a b : Place}

theorem unique (ha : n.Has a) (hb : n.Has b) (h : a.path = b.path) : a = b := by
  obtain ⟨path, node⟩ := a
  obtain ⟨path', node'⟩ := b
  obtain rfl : path = path' := h
  have hsame : some node = some node' := ha.symm.trans hb
  rw [Option.some.inj hsame]

theorem part (ha : n.Has a) (hb : b ∈ a.parts) : n.Has b := by
  obtain ⟨i, hnode, hpath⟩ := Place.mem_parts.mp hb
  unfold Has
  rw [hpath, at?, show n.at? a.path = some a.node from ha,
    Option.bind_some, hnode]

/-- Every place but the top is one of the parts of another place. -/
theorem parent {i : Nat} {path : List Nat} (ha : n.Has a)
    (hpath : a.path = i :: path) :
    ∃ b, n.Has b ∧ b.path = path ∧ a ∈ b.parts := by
  unfold Has at ha
  rw [hpath, at?] at ha
  obtain ⟨m, hm, hpart⟩ := Option.bind_eq_some_iff.mp ha
  exact ⟨⟨path, m⟩, hm, rfl, Place.mem_parts.mpr ⟨i, hpart, hpath⟩⟩

end Node.Has

namespace Visitor

variable {σ : Type} {v : Visitor σ} {a b : Place} {places : List Place}
    {n : Node} {s : σ}

end Visitor

end BridgeBindings.Syntax

namespace BridgeBindings.Sample

open Syntax

end BridgeBindings.Sample
