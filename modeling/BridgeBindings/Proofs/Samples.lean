import BridgeBindings.Proofs.Declared
import BridgeBindings.Resolve.Store

/-!
# Programs given by their trees

Small programs at which statements about all programs are tried out. Positions,
comments and paths play no part in them.
-/

namespace BridgeBindings

theorem ok_of_toOption {ε α : Type} {x : Except ε α} {a : α}
    (h : x.toOption = some a) : x = .ok a := by
  cases x <;> cases h
  rfl

namespace Sample

open Syntax

def start : Position := ⟨1, 0⟩

def name (id : String) : Expr := .name start id

def quoted (text : String) : Expr := .constant start (.text text false)

def field (id : String) (typeExpr : Expr) : Stmt :=
  .annAssign ⟨start, 1⟩ (name id) typeExpr none

def cls (id : String) (bases : List String) (body : List Stmt) : ClassDef :=
  ⟨start, id, bases.map name, [], body, []⟩

/-- An object of a class passed across the bridge. -/
def emitted (id : String) : Stmt :=
  .expr (.call start (.attribute start (name "webbridge") "emit")
    [.call start (name id) [] []] [])

def usesBridge : Stmt := .importModules [⟨"webbridge", none⟩]

/-- The function with which the program starts. -/
def mainFunction (body : List Stmt) : Stmt :=
  .function ⟨start, false, "main", ⟨[], [], none, [], none⟩, body, [], none⟩

def source (module package : String) (body : List Stmt) : Source where
  path := module
  relativePath := module
  module := module
  package := package
  isPackageInit := false
  tree := ⟨body⟩
  notes := ⟨[], []⟩
  scanEnding := .complete

def config : Config := { root := "/" }

/-- The program of these files; the module `main` is its entry. -/
def program (sources : List Source) : Program where
  root := "/"
  rootPackage := "main"
  packages := sources.foldl Program.addFile .empty
  entryFile := sources.find? (·.module = "main")

theorem files_source (s : Source) : (program [s]).files = [s] := by
  simp [program, Program.files, Program.sortedPackages, Program.addFile,
    Table.get?, Table.find, Table.insert, Table.empty, Table.put]

/-- The program of one file has the scope of that file, and no other. -/
theorem symbols_source (s : Source) :
    Symbols.ofProgram (program [s]) = ⟨.ofList [(s.module, .ofSource s)]⟩ := by
  unfold Symbols.ofProgram
  rw [files_source]
  rfl

/-- The store before anything is resolved. -/
def freshStore : Store := .ofPackages ["main"] "main"

/-- Files of two packages, given in the order of the packages. -/
theorem files_apart {f g : Source} (hne : f.package ≠ g.package)
    (hle : f.package ≤ g.package) : (program [f, g]).files = [f, g] := by
  have hentries : (program [f, g]).packages.entries =
      [(f.package, ⟨f.package, Path.directoryName f.path, [f]⟩),
        (g.package, ⟨g.package, Path.directoryName g.path, [g]⟩)] := by
    simp [program, Program.addFile, Table.get?, Table.find, Table.insert,
      Table.empty, Table.put, hne]
  unfold Program.files Program.sortedPackages
  rw [hentries, List.mergeSort_of_pairwise (by simp [hle])]
  rfl

theorem symbols_apart {f g : Source} (hne : f.package ≠ g.package)
    (hle : f.package ≤ g.package) : Symbols.ofProgram (program [f, g]) =
      ⟨.ofList [(f.module, .ofSource f), (g.module, .ofSource g)]⟩ := by
  unfold Symbols.ofProgram
  rw [files_apart hne hle]
  rfl

theorem has_source (s : Source) :
    (Symbols.ofProgram (program [s])).Has (.ofSource s) := by
  rw [symbols_source]
  exact Table.get?_insert_self _ _ _

theorem has_source_only {s : Source} {scope : Scope}
    (h : (Symbols.ofProgram (program [s])).Has scope) :
    scope = .ofSource s := by
  rw [symbols_source] at h
  exact congrArg Prod.snd (List.mem_singleton.mp (Table.get?_ofList_mem h))

end Sample

end BridgeBindings
