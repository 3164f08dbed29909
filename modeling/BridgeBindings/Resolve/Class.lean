import BridgeBindings.Resolve.Annotation

/-!
# Classes and aliases

A class is resolved by registering a placeholder, collecting the fields of its
bases and its own, and completing the struct. Classes that its annotations
mention are resolved on the way, aliases are expanded where they are written. A
class or alias that is being expanded already is not entered again, which is
what ends every cycle: each level of the recursion marks one more of the
finitely many classes and aliases, or comes back at once.
-/

namespace BridgeBindings

open Syntax

/-- How classes and aliases that annotations mention are expanded. -/
structure Expansion where
  cls : ProgramClass → Resolve Struct
  aliased : Site → Scope → String → Expr → Resolve TypeRef

/-- A reference to a class, from a declaration of this package. -/
def structRef (expand : Expansion) (owner : String) (c : ProgramClass) :
    Resolve TypeRef := do
  let s ← expand.cls c
  Resolve.changeDraft owner (·.addReference c.package)
  return .struct ⟨s.package, s.name⟩

def unresolvedMessage (dotted : String) : String :=
  "cannot resolve type " ++ Text.quoted dotted

def kindMessage (dotted kind : String) : String :=
  Text.quoted dotted ++ " is a " ++ kind ++ ", not a type"

/-- The type that a name of the program stands for. -/
def namedType (t : Symbols) (expand : Expansion) (site : Site) (row : Nat)
    (dotted : String) : Resolve TypeRef :=
  match t.lookup site.scope dotted with
  | none => Resolve.stop (site.fault row (unresolvedMessage dotted))
  | some (.external name) => do
    Resolve.changeDraft site.owner (·.addUnresolved name)
    return .external name
  | some (.alias scope name value) => expand.aliased site scope name value
  | some (.cls c) =>
    match t.enumType c with
    | some type => return type
    | none => structRef expand site.owner c
  | some symbol =>
    Resolve.stop (site.fault row (kindMessage dotted symbol.kind))

def annotationWith (t : Symbols) (expand : Expansion) (site : Site) (e : Expr) :
    Resolve TypeRef :=
  annotationType (namedType t expand site) site e

/-! ## Aliases -/

def isCall : Expr → Bool
  | .call .. => true
  | _ => false

/-- The type that an alias stands for, read where the alias is written. The
result of a call has no shape that could be read. -/
def expandAlias (t : Symbols) (expand : Expansion) (site : Site) (scope : Scope)
    (name : String) (value : Expr) : Resolve TypeRef := do
  let qualifiedName := scope.module ++ "." ++ name
  if isCall value || (← get).aliases.contains qualifiedName then return .any
  else
    Resolve.withAlias qualifiedName
      (annotationWith t expand { site with scope := scope } value)

/-! ## Classes -/

def inheritFields (fields : Table StructField) (inherited : List StructField) :
    Table StructField :=
  inherited.foldl (fun fields f => fields.insertNew f.name f) fields

/-- The fields of the bases, each name from the first base that has it. -/
def baseFields (expand : Expansion) (bases : List ProgramClass) :
    Resolve (Table StructField) :=
  bases.foldlM
    (fun fields b => return inheritFields fields (← expand.cls b).fields) .empty

/-- What a field is called in faults. -/
def ProgramClass.fieldLabel (c : ProgramClass) (f : FieldDecl) : String :=
  c.name ++ "." ++ f.name

/-- One field of a class. -/
def ownField (t : Symbols) (expand : Expansion) (c : ProgramClass)
    (f : FieldDecl) : Resolve StructField := do
  let site : Site := ⟨c.scope, c.package, c.fieldLabel f⟩
  let type ← annotationWith t expand site f.typeExpr
  return ⟨f.name, type, c.scope.source.notes.assignmentDoc f.span⟩

/-- The fields of a class: those of its bases, then its own in their order; a
field declared again stays at its place. -/
def collectFields (t : Symbols) (expand : Expansion) (c : ProgramClass) :
    Resolve (List StructField) := do
  let inherited ← baseFields expand (t.bases c)
  let fields ← c.decl.fields.foldlM
    (fun fields f => return fields.insert f.name (← ownField t expand c f))
      inherited
  return fields.values

def resolvedRecord (key : StructKey) (count : Nat) : LogRecord :=
  ⟨.debug, .resolver, "Resolved struct " ++ key.text ++ " (" ++
    toString count ++ " fields)"⟩

/-- The struct of a class, with its fields unless these are being
collected already. A class whose name another module has taken gets that
module's struct. -/
def resolveClass (t : Symbols) (expand : Expansion) (c : ProgramClass) :
    Resolve Struct := do
  let s ← Resolve.register c
  let d ← Resolve.draft c.package
  if !d.owns c.name c.module || d.isResolved c.name ||
    (← get).classes.contains c.key then return s
  else
    Resolve.withClass c.key do
      let fields ← collectFields t expand c
      Resolve.note (resolvedRecord c.key fields.length)
      Resolve.changeDraft c.package (·.complete c.name fields)
      return { s with fields := fields }

/-! ## All levels -/

mutual

def classAt (t : Symbols) : Nat → ProgramClass → Resolve Struct
  | 0, _ => throw .exhausted
  | levels + 1, c => resolveClass t ⟨classAt t levels, aliasAt t levels⟩ c

def aliasAt (t : Symbols) : Nat → Site → Scope → String → Expr → Resolve TypeRef
  | 0, _, _, _, _ => throw .exhausted
  | levels + 1, site, scope, name, value =>
    expandAlias t ⟨classAt t levels, aliasAt t levels⟩ site scope name value

end

/-- One level more opens a class or an alias, and leaves what these lead to
to the others. -/
theorem levels_succ (t : Symbols) (n : Nat) :
    (⟨classAt t (n + 1), aliasAt t (n + 1)⟩ : Expansion) =
      ⟨resolveClass t ⟨classAt t n, aliasAt t n⟩,
        expandAlias t ⟨classAt t n, aliasAt t n⟩⟩ :=
  rfl

namespace Symbols

/-- As many levels as there are classes and aliases to be marked, and one to
come back from. -/
def levels (t : Symbols) : Nat :=
  (t.scopes.values.flatMap fun s => s.classes.keys ++ s.aliases.keys).length + 1

def expansion (t : Symbols) : Expansion :=
  ⟨classAt t t.levels, aliasAt t t.levels⟩

def resolve (t : Symbols) (c : ProgramClass) : Resolve Struct :=
  t.expansion.cls c

theorem resolve_eq_resolveClass (t : Symbols) : ∃ n, t.levels = n + 1 ∧
    ∀ c, t.resolve c = resolveClass t ⟨classAt t n, aliasAt t n⟩ c :=
  ⟨_, rfl, fun _ => rfl⟩

def annotation (t : Symbols) (site : Site) (e : Expr) : Resolve TypeRef :=
  annotationWith t t.expansion site e

/-- The type of an annotation that may be missing. -/
def annotation? (t : Symbols) (site : Site) : Option Expr → Resolve TypeRef
  | some e => t.annotation site e
  | none => return .any

def classRef (t : Symbols) (owner : String) (c : ProgramClass) :
    Resolve TypeRef :=
  structRef t.expansion owner c

end Symbols

end BridgeBindings
