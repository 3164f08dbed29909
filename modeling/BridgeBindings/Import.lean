import BridgeBindings.Syntax.Walk
import BridgeBindings.Table
import BridgeBindings.Text.Blank

/-!
# Imports

What the names that a module imports stand for. Every import statement counts,
however deep it stands; the statements are taken level by level, and of two
imports of one name the later one in that order holds.
-/

namespace BridgeBindings

/-- What an imported name stands for: a module, or a name in one. -/
structure Binding where
  module : String
  name : Option String
  deriving DecidableEq, Repr, Inhabited

def Binding.qualifiedName (b : Binding) : String :=
  if b.module.isEmpty then b.name.getD ""
  else
    match b.name with
    | some name => if name.isEmpty then b.module else b.module ++ "." ++ name
    | none => b.module

/-- The part of a dotted name before its first dot, and what follows the dot. -/
def splitHead (dotted : String) : String × String :=
  let cs := dotted.toList
  let head := cs.takeWhile (· ≠ '.')
  (String.ofList head, String.ofList (cs.drop (head.length + 1)))

def dotJoin (parts : List String) : String := ".".intercalate parts

/-- The absolute name of the module that an import with `level` leading dots
means inside `module`. One dot is the package the module lives in, which for the
module of a package is the module itself. -/
def resolveRelative (module : String) (isPackage : Bool) (level : Nat)
    (target : Option String) : String :=
  let target := target.getD ""
  if level = 0 then target
  else
    let parts := if module.isEmpty then [] else Text.split '.' module
    let parts := if isPackage then parts else parts.dropLast
    let parts := parts.take (parts.length - (level - 1))
    dotJoin (if target.isEmpty then parts else parts ++ [target])

namespace Imports

open Syntax

/-- The names that one statement binds. -/
def ofStmt (module : String) (isPackage : Bool) : Stmt → List (String × Binding)
  | .importModules names => names.map fun n =>
    match n.asName with
    | some asName => (asName, ⟨n.name, none⟩)
    | none => ((splitHead n.name).1, ⟨(splitHead n.name).1, none⟩)
  | .importFrom target level names =>
    let source := resolveRelative module isPackage level target
    (names.filter (·.name ≠ "*")).map fun n =>
      (n.asName.getD n.name, ⟨source, some n.name⟩)
  | _ => []

def ofNode (module : String) (isPackage : Bool) : Node → List (String × Binding)
  | .stmt s => ofStmt module isPackage s
  | _ => []

/-- The imports of a module. -/
def collect (tree : Module) (module : String) (isPackage : Bool) :
    Table Binding :=
  Table.ofList
    ((Node.breadthFirst [.module tree]).flatMap (ofNode module isPackage))

end Imports

end BridgeBindings
