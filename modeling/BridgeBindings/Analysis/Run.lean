import BridgeBindings.Analysis.Result
import BridgeBindings.Usage.Classify

/-!
# The analysis

Every record class is registered before the first is resolved, so the order of
declarations does not matter. A type fault fails the package that is being
resolved and the one where the type is written; the other packages go on. What a
failure elsewhere left unfinished is resolved at the end, and the packages that
did not fail are built.
-/

namespace BridgeBindings

/-- A step of an analysis; the store stays when it stops. -/
abbrev Analyze (α : Type) := ExceptT Fault (StateM Store) α

/-- How an analysis stops where a resolution does. -/
def Fault.ofStop : Stop → Fault
  | .fault f => .type f
  | .broken b => .broken b
  | .exhausted => .exhausted

namespace Analyze

/-- Runs a resolution that stops the analysis if it stops. -/
def ofResolve {α : Type} (step : Resolve α) : Analyze α := fun s =>
  match step s with
  | (.ok a, s) => (.ok a, s)
  | (.error stop, s) => (.error (.ofStop stop), s)

def note (r : LogRecord) : Analyze Unit := modify (·.note r)

/-! ## Registering and resolving -/

/-- The classes of a program, module by module. -/
def classes (t : Symbols) : List ProgramClass :=
  t.sortedScopes.flatMap fun scope =>
    scope.classes.values.map fun c => ⟨scope, c⟩

def records (t : Symbols) : List ProgramClass := (classes t).filter t.isRecord

/-- Registers those of some classes that are records. -/
def registerRecords (t : Symbols) (classes : List ProgramClass) :
    Resolve Unit :=
  classes.forM fun c => do
    Resolve.expect (t.breakdown? c)
    if t.isRecord c then discard (Resolve.register c)

def resolveAll (t : Symbols) (classes : List ProgramClass) : Resolve Unit :=
  classes.forM fun c => discard (t.resolve c)

/-- Charges a fault to a package, and to the package where it is written unless
that has failed already. -/
def charge (failures : Table TypeFault) (package : String) (f : TypeFault) :
    Table TypeFault :=
  (failures.insert package f).insertNew f.package f

/-- Charges a fault that came up behind the first resolution. -/
def chargeLater (failures : Table TypeFault) (package : String)
    (f : TypeFault) : Table TypeFault :=
  (failures.insertNew package f).insertNew f.package f

def resolvePackage (t : Symbols) (classes : List ProgramClass)
    (failures : Table TypeFault) (package : String) :
    Analyze (Table TypeFault) := do
  match ← ofResolve
      (resolveAll t (classes.filter (·.package = package))).attempt with
  | .ok () => return failures
  | .error f =>
    note ⟨.error, .analysis, f.text⟩
    return charge failures package f

/-! ## Finishing -/

/-- The class that a placeholder was registered for. -/
def classOfStruct? (t : Symbols) (s : Struct) : Option ProgramClass :=
  (t.scope? s.module).bind fun scope =>
    (scope.classes.get? s.name).map fun c => ⟨scope, c⟩

def finishPackage (t : Symbols) (failures : Table TypeFault)
    (package : String) : Analyze (Table TypeFault) := do
  if failures.contains package then return failures
  else
    let d := (← get).draft package
    let waiting := (d.pending.filterMap d.get?).filterMap (classOfStruct? t)
    match ← ofResolve (resolveAll t waiting).attempt with
    | .ok () => return failures
    | .error f => return failures.insert package f

/-! ## Building -/

def builtRecord (p : Package) : LogRecord :=
  ⟨.info, .analysis, "Package " ++ p.name ++ ": " ++
    toString p.structs.keys.length ++ " structs (" ++
    toString p.usedAsData.length ++ " data), " ++ toString p.methods.length ++
    " bound methods"⟩

/-- Builds a package, or records why it failed. -/
def buildPackage (failures : Table TypeFault) (result : AnalysisResult)
    (package : String) : Analyze AnalysisResult := do
  match failures.get? package with
  | some f => return result.recordFailure package f
  | none =>
    match (Building.build { draft := (← get).draft package }).1 with
    | .error f => throw (.build f)
    | .ok p =>
      note (builtRecord p)
      return { result with packages := result.packages.insert package p }

/-- The analysis of a program. -/
def program (config : Config) (p : Program) : Analyze AnalysisResult := do
  let t := Symbols.ofProgram p
  let packages := sortNames p.packages.keys
  ofResolve (registerRecords t (classes t))
  let failures ← packages.foldlM (resolvePackage t (records t)) .empty
  let (surface, scanned) ← ofResolve (scanSurface t config p.entryFile)
  let failures :=
    scanned.entries.foldl
      (fun fs (package, f) => chargeLater fs package f) failures
  let failures ← packages.foldlM (finishPackage t) failures
  modify (classify t surface)
  let start : AnalysisResult :=
    { root := p.root, rootPackage := p.rootPackage, surface }
  packages.foldlM (buildPackage failures) start

end Analyze

/-- Analyzes the program that a configuration describes. The log is kept also
when the analysis stops. -/
def analyze (files : FileTree) (config : Config) :
    Except Fault AnalysisResult × Log :=
  match Program.load files config with
  | (.error f, log) => (.error f, log)
  | (.ok p, log) =>
    let start := Store.ofPackages p.packages.keys p.rootPackage
    let (answer, s) := Analyze.program config p { start with log := log }
    (answer, s.log)

end BridgeBindings
