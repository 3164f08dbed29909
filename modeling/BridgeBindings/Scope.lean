import BridgeBindings.Declaration
import BridgeBindings.Import
import BridgeBindings.Program
import BridgeBindings.TypeRef

/-!
# Scopes

The names that a module has at its top level: what it imports, the classes and
functions it declares and the names it gives values to. Names keep the order in
which they came first; of several declarations of one kind the last one holds.
-/

namespace BridgeBindings

open Syntax

structure Scope where
  source : Source
  imports : Table Binding
  classes : Table ClassDef
  functions : Table FunctionDef
  /-- The values of names, such as the types that aliases stand for. -/
  aliases : Table Expr

namespace Scope

def classOf? : Stmt → Option (String × ClassDef)
  | .cls c => some (c.name, c)
  | _ => none

def functionOf? : Stmt → Option (String × FunctionDef)
  | .function f => some (f.name, f)
  | _ => none

def aliasOf? : Stmt → Option (String × Expr)
  | .assign _ [.name _ id] value => some (id, value)
  | .annAssign _ (.name _ id) _ (some value) => some (id, value)
  | _ => none

def ofSource (s : Source) : Scope where
  source := s
  imports := Imports.collect s.tree s.module s.isPackageInit
  classes := .ofList (s.tree.body.filterMap classOf?)
  functions := .ofList (s.tree.body.filterMap functionOf?)
  aliases := .ofList (s.tree.body.filterMap aliasOf?)

def module (s : Scope) : String := s.source.module

def package (s : Scope) : String := s.source.package

def defines (s : Scope) (name : String) : Bool :=
  s.classes.contains name || s.functions.contains name ||
    s.aliases.contains name

end Scope

/-! ## Symbols -/

/-- A class where it is declared. -/
structure ProgramClass where
  scope : Scope
  decl : ClassDef

namespace ProgramClass

def name (c : ProgramClass) : String := c.decl.name

def module (c : ProgramClass) : String := c.scope.module

def package (c : ProgramClass) : String := c.scope.package

def qualifiedName (c : ProgramClass) : String := c.module ++ "." ++ c.name

/-- The struct that a class makes. -/
def key (c : ProgramClass) : StructKey := ⟨c.package, c.name⟩

def doc (c : ProgramClass) : List CodeText :=
  c.scope.source.notes.classDoc c.decl

end ProgramClass

/-- What a name stands for. -/
inductive Symbol where
  | cls (c : ProgramClass)
  | function (scope : Scope) (decl : FunctionDef)
  | alias (scope : Scope) (name : String) (value : Expr)
  | module (scope : Scope)
  | external (qualifiedName : String)

namespace Symbol

def kind : Symbol → String
  | .cls _ => "class"
  | .function .. => "function"
  | .alias .. => "alias"
  | .module _ => "module"
  | .external _ => "external"

def qualifiedName : Symbol → String
  | .cls c => c.qualifiedName
  | .function scope decl => scope.module ++ "." ++ decl.name
  | .alias scope name _ => scope.module ++ "." ++ name
  | .module scope => scope.module
  | .external name => name

end Symbol

/-- What a scope declares under a name: a class before a function
before a value. -/
def Scope.declared? (s : Scope) (name : String) : Option Symbol :=
  match s.classes.get? name with
  | some c => some (.cls ⟨s, c⟩)
  | none =>
    match s.functions.get? name with
    | some f => some (.function s f)
    | none => (s.aliases.get? name).map (.alias s name)

/-! ## The scopes of a program -/

structure Symbols where
  scopes : Table Scope

namespace Symbols

/-- One scope for each module; of two files of one module the
later one holds. -/
def ofProgram (p : Program) : Symbols :=
  ⟨.ofList (p.files.map fun s => (s.module, Scope.ofSource s))⟩

def scope? (t : Symbols) (module : String) : Option Scope :=
  t.scopes.get? module

/-- The scopes by module. -/
def sortedScopes (t : Symbols) : List Scope :=
  (t.scopes.entries.mergeSort fun a b => decide (a.1 ≤ b.1)).map (·.2)

/-- Whether a name is that of something in the program, judged by
its first part. -/
def isInTree (t : Symbols) (qualifiedName : String) : Bool :=
  t.scopes.keys.any fun module => (splitHead module).1 =
    (splitHead qualifiedName).1

/-- How many imports of imported names are followed. -/
def maxReexports : Nat := 8

/-- The longest module that a list of parts starts with, and the
parts behind it. -/
def longestModule (t : Symbols) (parts : List String) :
    Nat → Option (Scope × List String)
  | 0 => none
  | n + 1 =>
    match t.scope? (dotJoin (parts.take (n + 1))) with
    | some scope => some (scope, parts.drop (n + 1))
    | none => t.longestModule parts n

/-- What a name stands for as a member of a module: a declaration, something
imported, or a module below it. Without a way to follow imports they count for
nothing. -/
def member (t : Symbols) (follow : Option (String → Option Symbol))
    (scope : Scope) (name : String) : Option Symbol :=
  match scope.declared? name with
  | some symbol => some symbol
  | none =>
    match scope.imports.get? name, follow with
    | some binding, some follow => follow binding.qualifiedName
    | _, _ => (t.scope? (scope.module ++ "." ++ name)).map .module

/-- What a qualified name stands for, one import at a time. -/
def lookupStep (t : Symbols) (follow : Option (String → Option Symbol))
    (qualifiedName : String) : Option Symbol :=
  let parts := Text.split '.' qualifiedName
  match t.longestModule parts parts.length with
  | some (scope, []) => some (.module scope)
  | some (scope, [name]) => t.member follow scope name
  | some (_, _) => none
  | none =>
      if t.isInTree qualifiedName then none else some (.external qualifiedName)

/-- What a qualified name stands for if so many imports may
still be followed. -/
def lookupWithin (t : Symbols) : Nat → String → Option Symbol
  | 0 => t.lookupStep none
  | reexports + 1 => t.lookupStep (some (t.lookupWithin reexports))

def lookupQualified (t : Symbols) (qualifiedName : String) : Option Symbol :=
  t.lookupWithin maxReexports qualifiedName

/-- What a dotted name stands for where a scope's module writes it. A
declaration of the module has no parts of its own. -/
def lookup (t : Symbols) (scope : Scope) (dotted : String) : Option Symbol :=
  let (head, rest) := splitHead dotted
  match scope.declared? head with
  | some symbol => if rest.isEmpty then some symbol else none
  | none =>
    match scope.imports.get? head with
    | some binding =>
      let target := binding.qualifiedName
      t.lookupQualified (if rest.isEmpty then target else target ++ "." ++ rest)
    | none => none

end Symbols

end BridgeBindings
