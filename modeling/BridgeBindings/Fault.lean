import BridgeBindings.Breakdown
import BridgeBindings.Package.Builder

/-!
# Faults

What can go wrong with a program's sources, types and bindings, and how each is
told.
-/

namespace BridgeBindings

/-- A declared type that comes to nothing known: what is wrong, the package,
file and row where it is written, and the declaration it belongs to. -/
structure TypeFault where
  message : String
  package : String
  path : Option String := none
  row : Option Int := none
  declaration : Option String := none
  deriving DecidableEq, Repr, Inhabited

/-- A place in a file; row zero is no row. -/
def placeText (path : String) : Option Int → String
  | some row => if row = 0 then path else path ++ ":" ++ toString row
  | none => path

def TypeFault.text (f : TypeFault) : String :=
  let place := match f.path with
    | some path => if path.isEmpty then [] else [placeText path f.row]
    | none => []
  let declaration := match f.declaration with
    | some d => if d.isEmpty then [] else [d]
    | none => []
  ", ".intercalate (("package " ++ f.package) :: place ++ declaration) ++
    ": " ++ f.message

inductive Fault where
  | type (f : TypeFault)
  | source (path message : String) (row : Option Int)
  | io (path message : String)
  | template (name package message : String)
  /-- A template whose bytes are no text. -/
  | notText (path : String)
  | build (f : BuildFault)
  | broken (b : Breakdown)
  /-- A resolution needs more levels than were allowed for. -/
  | exhausted
  deriving DecidableEq, Repr, Inhabited

def Fault.text : Fault → String
  | .type f => f.text
  | .source path message row => placeText path row ++ ": " ++ message
  | .io path message => path ++ ": " ++ message
  | .template name package message =>
    "template " ++ name ++ " (package " ++ package ++ "): " ++ message
  | .notText path => path ++ ": not UTF-8"
  | .build f => f.text
  | .broken b => b.text
  | .exhausted => "the types of the program have no end"

end BridgeBindings
