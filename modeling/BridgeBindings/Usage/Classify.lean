import BridgeBindings.Bridge.Surface
import BridgeBindings.Usage.Graph

/-!
# Structs that cross the bridge

A struct is data if a bound method mentions it, if an object of it is passed to
the bridge anywhere in the program, or if a data struct mentions it in a field.
-/

namespace BridgeBindings

open Syntax

/-- The structs that the signatures of the surface mention. -/
def surfaceSeeds (s : Surface) : List StructKey :=
  s.methods.flatMap fun m =>
    m.params.flatMap (·.type.structRefs) ++
      m.result.toList.flatMap (·.structRefs)

/-- The classes of the objects that a module passes to the bridge. -/
def payloadClasses (t : Symbols) (bridge : Bridge) (scope : Scope) :
    List ProgramClass :=
  let localName? := if bridge.entryModule = some scope.module then
    bridge.localName
    else bridgeAlias? scope bridge.bridgeModule
  match localName? with
  | none => []
  | some name =>
    let calls := BridgeCalls.collect { bridge with localName := some name }
      scope.source.tree
    calls.payloads.filterMap (t.classOf scope calls)

/-- The structs whose objects are passed to the bridge, each with the module
that passes one. -/
def payloadSeeds (t : Symbols) (bridge : Bridge) (s : Store) :
    List (String × ProgramClass) :=
  t.sortedScopes.flatMap fun scope =>
    ((payloadClasses t bridge scope).filter fun c =>
      (s.draft c.package).owns c.name c.module).map fun c => (scope.module, c)

/-- The graph of all structs that have their fields. -/
def structGraph (s : Store) : StructGraph :=
  (s.drafts.values.flatMap fun d => d.resolvedNames.filterMap d.get?).foldl
    StructGraph.addStruct .empty

def markData (s : Store) (key : StructKey) : Store :=
  match s.get? key with
  | some _ =>
      s.setDraft key.package ((s.draft key.package).markUsedAsData key.name)
  | none => s

def payloadRecord (module : String) (c : ProgramClass) : LogRecord :=
  ⟨.debug, .usage, module ++ " passes " ++ c.qualifiedName ++ " to the bridge"⟩

def usageRecord (used seeds : Nat) : LogRecord :=
  ⟨.debug, .usage, toString used ++ " structs used as data (" ++
    toString seeds ++ " seeds)"⟩

/-- Marks the structs that cross the bridge. -/
def classify (t : Symbols) (surface : Surface) (s : Store) : Store :=
  let payloads := payloadSeeds t surface.bridge s
  let seeds :=
    StructKey.sortedSet
      (surfaceSeeds surface ++ payloads.map fun (_, c) => c.key)
  let used := StructKey.sortedSet ((structGraph s).reachable seeds)
  let logged :=
    payloads.foldl (fun s (module, c) => s.note (payloadRecord module c)) s
  (used.foldl markData logged).note (usageRecord used.length seeds.length)

end BridgeBindings
