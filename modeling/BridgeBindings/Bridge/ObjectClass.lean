import BridgeBindings.Bridge.Calls
import BridgeBindings.Hierarchy
import BridgeBindings.Text.Blank

/-!
# The class of an object

What class the value of an expression has, as far as the text says: a call of a
class makes one of its objects, a call of a function one of the class it says to
return, and a name has the class of its annotation or else of its value.
-/

namespace BridgeBindings

open Syntax

/-- How many names are followed to their values. -/
def maxVariableDepth : Nat := 8

/-- The name that a function says to return. -/
def returnName? (f : FunctionDef) : Option String :=
  match f.returns with
  | none => none
  | some e =>
    match e.text? with
    | some text =>
        if (Text.trim text).isEmpty then none else some (Text.trim text)
    | none => e.dotted?

namespace Symbols

/-- The class of what a call makes. -/
def classOfCall (t : Symbols) (scope : Scope) (func : Expr) :
    Option ProgramClass :=
  match func.dotted?.bind (t.lookup scope) with
  | some (.cls c) => some c
  | some (.function home f) => (returnName? f).bind (t.lookupClass home)
  | _ => none

/-- The class of an expression if so many names may still be followed. -/
def classOfWithin (t : Symbols) (scope : Scope) (calls : BridgeCalls) :
    Nat → Expr → Option ProgramClass
  | _, .call _ func _ _ => t.classOfCall scope func
  | names, .name _ id =>
    match (calls.annotations.get? id).bind fun e =>
        e.dotted?.bind (t.lookupClass scope) with
    | some c => some c
    | none =>
      match calls.values.get? id, names with
      | some value, names + 1 => t.classOfWithin scope calls names value
      | _, _ => none
  | _, _ => none

def classOf (t : Symbols) (scope : Scope) (calls : BridgeCalls) (e : Expr) :
    Option ProgramClass :=
  t.classOfWithin scope calls maxVariableDepth e

end Symbols

end BridgeBindings
