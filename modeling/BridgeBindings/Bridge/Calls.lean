import BridgeBindings.Import
import BridgeBindings.Scope
import BridgeBindings.Syntax.Walk

/-!
# Calls across the bridge

A module reaches the bridge through the name that it imports it under, and
through every name that is given the result of such a call. One walk over the
module collects what is bound to the bridge and what else is passed to it,
together with the values and annotations of all names, whose owners are looked
up only when the walk is done.
-/

namespace BridgeBindings

open Syntax

/-- How a module talks to the bridge. -/
structure Bridge where
  bridgeModule : String
  localName : Option String := none
  entryModule : Option String := none
  bindMethods : List String := ["bind"]
  bindKeyword : String := "bind"
  deriving DecidableEq, Repr, Inhabited

/-- The first of the names that a scope imports the bridge module under. -/
def bridgeAlias? (scope : Scope) (bridgeModule : String) : Option String :=
  (sortNames ((scope.imports.entries.filter fun (_, b) =>
    b.name.isNone && b.module = bridgeModule).map (·.1))).head?

structure BridgeCalls where
  /-- Names given the result of a call across the bridge. -/
  apps : List String := []
  values : Table Expr := .empty
  annotations : Table Expr := .empty
  bound : List Expr := []
  payloads : List Expr := []

namespace BridgeCalls

/-- Whether a function is reached through the bridge. -/
def isReceiver (bridge : Bridge) (calls : BridgeCalls) (func : Expr) : Bool :=
  match func.dotted? with
  | none => false
  | some name =>
    name.toList.contains '.' &&
      (bridge.localName = some (splitHead name).1 ||
        calls.apps.contains (splitHead name).1)

def targetName? : Expr → Option String
  | .name _ id => some id
  | _ => none

def isBridgeCall (bridge : Bridge) (calls : BridgeCalls) : Expr → Bool
  | .call _ func _ _ => calls.isReceiver bridge func
  | _ => false

/-- Gives a value to names. -/
def assign (bridge : Bridge) (calls : BridgeCalls) (value : Expr)
    (names : List String) : BridgeCalls :=
  if calls.isBridgeCall bridge value then
    { calls with apps := names.reverse ++ calls.apps }
  else { calls with
    values := names.foldl (fun t n => t.insert n value) calls.values }

def onAssignment (bridge : Bridge) (a : Assignment) (calls : BridgeCalls) :
    BridgeCalls :=
  match a with
  | .plain _ targets value =>
      calls.assign bridge value (targets.filterMap targetName?)
  | .annotated _ target typeExpr value =>
    let names := (targetName? target).toList
    let calls :=
      { calls with
        annotations :=
          names.foldl (fun t n => t.insert n typeExpr) calls.annotations }
    match value with
    | some value => calls.assign bridge value names
    | none => calls

/-- The objects that an argument of a binding call binds. -/
def boundBy : Expr → List Expr
  | .list _ elts | .tuple _ elts => elts
  | .starred .. => []
  | e => [e]

def displayed? : Expr → Option (List Expr)
  | .list _ elts | .tuple _ elts | .set _ elts => some elts
  | _ => none

def onKeyword (bridge : Bridge) (binds : Bool) (calls : BridgeCalls)
    (k : Keyword) : BridgeCalls :=
  match k.arg with
  | none => calls
  | some name =>
    match (if name = bridge.bindKeyword then displayed? k.value else none) with
    | some elts => { calls with bound := calls.bound ++ elts }
    | none =>
        if binds then calls
          else { calls with payloads := calls.payloads ++ [k.value] }

def methodName : Expr → String
  | .attribute _ _ attr => attr
  | _ => ""

def onCall (bridge : Bridge) (c : Call) (calls : BridgeCalls) : BridgeCalls :=
  if calls.isReceiver bridge c.func then
    let binds := bridge.bindMethods.contains (methodName c.func)
    let calls :=
      if binds then
        { calls with bound := calls.bound ++ c.args.flatMap boundBy }
      else { calls with
        payloads := calls.payloads ++ c.args.filter (!·.isStarred) }
    c.keywords.foldl (onKeyword bridge binds) calls
  else calls

def visitor (bridge : Bridge) : Visitor BridgeCalls where
  call c calls := (true, onCall bridge c calls)
  assignment a calls := (true, onAssignment bridge a calls)

/-- The bridge calls of a module. -/
def collect (bridge : Bridge) (tree : Module) : BridgeCalls :=
  (visitor bridge).walk (.module tree) {}

end BridgeCalls

end BridgeBindings
