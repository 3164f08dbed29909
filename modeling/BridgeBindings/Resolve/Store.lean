import BridgeBindings.Fault
import BridgeBindings.Log
import BridgeBindings.Package.Draft
import BridgeBindings.Scope

/-!
# The resolver's store

What a resolution works on: the draft of every package, the classes and aliases
that are being expanded just now, and what has been logged. A resolution that
fails leaves the store as it was at that moment, apart from the marks of what is
being expanded, which are always taken back.
-/

namespace BridgeBindings

structure Store where
  drafts : Table Draft
  /-- The structs whose classes are being resolved, innermost first. -/
  classes : List StructKey := []
  /-- The aliases that are being expanded, innermost first. -/
  aliases : List String := []
  log : Log := []

/-- Why a resolution stops without a result. -/
inductive Stop where
  | fault (f : TypeFault)
  | broken (b : Breakdown)
  /-- The levels that were allowed for do not suffice. -/
  | exhausted
  deriving DecidableEq, Repr, Inhabited

/-- A step of a resolution: whether it stops or not, there is a
store afterwards. -/
abbrev Resolve (α : Type) := ExceptT Stop (StateM Store) α

namespace Store

/-- Empty drafts for the packages of a program, by name. -/
def ofPackages (names : List String) (rootPackage : String) : Store where
  drafts := .ofList
    ((sortNames names).map fun name =>
      (name, { name, isRoot := name = rootPackage }))

def draft (s : Store) (package : String) : Draft :=
  (s.drafts.get? package).getD { name := package }

def setDraft (s : Store) (package : String) (d : Draft) : Store :=
  { s with drafts := s.drafts.insert package d }

def note (s : Store) (r : LogRecord) : Store := { s with log := s.log ++ [r] }

def get? (s : Store) (key : StructKey) : Option Struct :=
  (s.draft key.package).get? key.name

end Store

namespace Resolve

def stop {α : Type} (f : TypeFault) : Resolve α := throw (.fault f)

/-- A value, unless there was none to be had. -/
def lift {α : Type} : Except Breakdown α → Resolve α
  | .ok a => return a
  | .error b => throw (.broken b)

/-- Goes on if nothing came in the way. -/
def expect : Option Breakdown → Resolve Unit
  | none => return ()
  | some b => throw (.broken b)

def draft (package : String) : Resolve Draft := return (← get).draft package

def changeDraft (package : String) (f : Draft → Draft) : Resolve Unit :=
  modify fun s => s.setDraft package (f (s.draft package))

def note (r : LogRecord) : Resolve Unit := modify (·.note r)

/-- Runs a step with a class marked as being resolved. -/
def withClass {α : Type} (key : StructKey)
    (step : Resolve α) : Resolve α := fun s =>
  let (answer, after) := step { s with classes := key :: s.classes }
  (answer, { after with classes := after.classes.erase key })

/-- Runs a step with an alias marked as being expanded. -/
def withAlias {α : Type} (name : String)
    (step : Resolve α) : Resolve α := fun s =>
  let (answer, after) := step { s with aliases := name :: s.aliases }
  (answer, { after with aliases := after.aliases.erase name })

/-- Runs a step and catches its fault. What is not a fault stays a stop. -/
def attempt {α : Type} (step : Resolve α) : Resolve
    (Except TypeFault α) := fun s =>
  match step s with
  | (.ok a, s) => (.ok (.ok a), s)
  | (.error (.fault f), s) => (.ok (.error f), s)
  | (.error stop, s) => (.error stop, s)

end Resolve

/-! ## Registering -/

def duplicateRecord (package name kept other : String) : LogRecord :=
  ⟨.warning, .package, "Struct " ++ package ++ "." ++ name ++
    " declared in both " ++ kept ++ " and " ++ other ++ "; keeping " ++ kept⟩

/-- What registering a struct again says, if it is for another module. -/
def Draft.duplicate? (d : Draft) (name module : String) : Option LogRecord :=
  match d.get? name with
  | some s =>
      if s.module = module then none
        else some (duplicateRecord d.name name s.module module)
  | none => none

/-- The struct of a class, registered as a placeholder if its name is free. -/
def Resolve.register (c : ProgramClass) : Resolve Struct := do
  let d ← Resolve.draft c.package
  match d.duplicate? c.name c.module with
  | some r => Resolve.note r
  | none => pure ()
  Resolve.changeDraft c.package (·.register c.name c.module c.doc)
  return (d.get? c.name).getD (d.placeholder c.name c.module c.doc)

end BridgeBindings
