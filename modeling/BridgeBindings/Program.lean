import BridgeBindings.Config.Basic
import BridgeBindings.Log
import BridgeBindings.Source

/-!
# Programs

A program is all source files below its root directory, apart from those in
excluded or hidden directories and in the directory that bindings go to. Files
are taken by name, those of a directory before those of its subdirectories, and
grouped by the package that their directory makes.
-/

namespace BridgeBindings

structure SourcePackage where
  name : String
  path : String
  files : List Source

structure Program where
  root : String
  rootPackage : String
  /-- In the order in which the directories come. -/
  packages : Table SourcePackage
  entryFile : Option Source

namespace Program

/-- The packages by name. -/
def sortedPackages (p : Program) : List SourcePackage :=
  (p.packages.entries.mergeSort fun a b => decide (a.1 ≤ b.1)).map (·.2)

/-- All files, package by package. -/
def files (p : Program) : List Source := p.sortedPackages.flatMap (·.files)

def isSourceName (name : String) : Bool := name.endsWith ".py"

/-- Whether files below a directory belong to the program. -/
def admits (config : Config) (root moduleDir : String) (place : List String) :
    Bool :=
  let name := place.getLast?.getD ""
  !config.excludeDirs.contains name && !(name.toList.head? = some '.') &&
    Path.join root (Path.ofParts place) ≠ moduleDir

/-- The paths of a program's source files, in order. -/
def sourcePaths (files : FileTree) (config : Config) : List String :=
  let root := Path.absolute config.root
  let moduleDir := Path.absolute config.modulePath
  let places := files.filesBelow root (admits config root moduleDir)
  (places.filter fun place => isSourceName (place.getLast?.getD "")).map
    fun place => Path.join root (Path.ofParts place)

/-- Puts a file into its package; the first file says where the package is. -/
def addFile (packages : Table SourcePackage) (s : Source) :
    Table SourcePackage :=
  let package :=
    (packages.get? s.package).getD ⟨s.package, Path.directoryName s.path, []⟩
  packages.insert s.package { package with files := package.files ++ [s] }

def ofSources (config : Config) (sources : List Source) : Program where
  root := Path.absolute config.root
  rootPackage := config.rootPackage
  packages := sources.foldl addFile .empty
  entryFile := sources.find? fun s => Path.absolute s.path =
    Path.absolute config.entryPath

/-- What reading a file reports. -/
def sourceLog (s : Source) : Log :=
  match s.scanEnding with
  | .complete => []
  | .broken => [⟨.debug, .scan, "Could not tokenize comments"⟩]

/-- What is reported once all files are read. -/
def loadLog (config : Config) (p : Program) : Log :=
  ⟨.debug, .scan, "Loaded " ++ toString p.packages.keys.length ++
      " packages (" ++ toString p.files.length ++ " files) from " ++ p.root⟩ ::
    match p.entryFile with
    | some _ => []
    | none =>
      [⟨.info, .scan, "Entry file " ++ config.entryFile ++
        " not found; no methods will be exposed"⟩]

/-- Reads files one after the other up to the first that cannot be read. -/
def readAll (read : String → Except Fault Source) :
    List String → List Source × Option Fault
  | [] => ([], none)
  | path :: rest =>
    match read path with
    | .error f => ([], some f)
    | .ok s =>
      let (sources, fault) := readAll read rest
      (s :: sources, fault)

/-- Reads the program that a configuration describes, and reports
what it meets. -/
def load (files : FileTree) (config : Config) : Except Fault Program × Log :=
  let root := Path.absolute config.root
  if !files.isDirectory root then
    (.error (.io root "source root is not a directory"), [])
  else
    let (sources, fault) :=
      readAll (fun path => Source.read files root path config.rootPackage)
      (sourcePaths files config)
    let log := sources.flatMap sourceLog
    match fault with
    | some f => (.error f, log)
    | none =>
      let program := ofSources config sources
      (.ok program, log ++ loadLog config program)

end Program

end BridgeBindings
