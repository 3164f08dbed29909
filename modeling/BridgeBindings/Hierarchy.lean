import BridgeBindings.Scope
import BridgeBindings.TypeRef

/-!
# Class hierarchies

What a class is by its bases: whether it is a record, and if it is an enum, what
its members carry. Bases are followed within the program only and no further
than a fixed depth, so a cycle of bases does no harm.
-/

namespace BridgeBindings

open Syntax

/-- How deep bases are followed. -/
def maxBaseDepth : Nat := 16

namespace Symbols

/-- The class that a dotted name stands for in a scope. -/
def lookupClass (t : Symbols) (scope : Scope) (dotted : String) :
    Option ProgramClass :=
  match t.lookup scope dotted with
  | some (.cls c) => some c
  | _ => none

/-- The class that a base names; parameters in brackets do not matter. -/
def baseClass (t : Symbols) (scope : Scope) (base : Expr) :
    Option ProgramClass :=
  let target := match base with
    | .subscript _ value _ => value
    | _ => base
  target.dotted?.bind (t.lookupClass scope)

/-- The bases of a class that the program declares. -/
def bases (t : Symbols) (c : ProgramClass) : List ProgramClass :=
  c.decl.bases.filterMap (t.baseClass c.scope)

end Symbols

/-! ## Enums -/

def primitiveNames : List (String × Primitive) :=
  [("bool", .boolean), ("int", .integer), ("float", .float), ("str", .string),
    ("LiteralString", .string)]

/-- The bases that make an enum, with what its members carry if the
base says it. -/
def enumBases : List (String × Option Primitive) :=
  [("enum.Enum", none), ("enum.Flag", some .integer),
    ("enum.IntFlag", some .integer), ("enum.IntEnum", some .integer),
    ("enum.StrEnum", some .string)]

/-- What a literal carries. -/
def literalKind : Expr → Option Primitive
  | .constant _ .true | .constant _ .false => some .boolean
  | .constant _ (.integer _) => some .integer
  | .constant _ (.float _) => some .float
  | .constant _ (.text ..) | .constant _ (.torn ..) => some .string
  | _ => none

/-- The primitive that all of a list of kinds are, or any. -/
def commonKind : List (Option Primitive) → TypeRef
  | some p :: rest => if rest.all (· = some p) then .primitive p else .any
  | _ => .any

/-- What an enum member carries by its value. -/
def memberKind : Expr → Option Primitive
  | .call _ func _ _ =>
    if func.dotted? = some "auto" || func.dotted? = some "enum.auto"
      then some .integer else none
  | value => literalKind value

def isMemberTarget : Expr → Bool
  | .name _ id => isPublic id
  | _ => false

def memberKinds (c : ClassDef) : List (Option Primitive) :=
  c.body.filterMap fun
    | .assign _ targets value =>
      if targets.any isMemberTarget then some (memberKind value) else none
    | _ => none

/-- What the bases of a class looked at so far say about it. -/
structure EnumTraits where
  isEnum : Bool := false
  primitive : Option Primitive := none

/-- Whether a name stands for a type of the language itself in a scope. -/
def primitiveBase? (scope : Scope) (name : String) : Option Primitive :=
  if scope.defines name || scope.imports.contains name then none
    else primitiveNames.lookup name

/-- Takes one more base into account; the first base that says what the members
carry decides. -/
def EnumTraits.add (t : Symbols) (inherited : ProgramClass → Option TypeRef)
    (scope : Scope) (traits : EnumTraits) (base : Expr) : EnumTraits :=
  match base.dotted? with
  | none => traits
  | some name =>
    match primitiveBase? scope name with
    | some p => { traits with primitive := traits.primitive <|> some p }
    | none =>
      match t.lookup scope name with
      | some (.external qualifiedName) =>
        match enumBases.lookup qualifiedName with
        | some p => ⟨true, traits.primitive <|> p⟩
        | none => traits
      | some (.cls c) =>
        match inherited c with
        | some (.primitive p) => ⟨true, traits.primitive <|> some p⟩
        | some _ => { traits with isEnum := true }
        | none => traits
      | _ => traits

def EnumTraits.type? (traits : EnumTraits) (c : ClassDef) : Option TypeRef :=
  if traits.isEnum then
    match traits.primitive with
    | some p => some (.primitive p)
    | none => some (commonKind (memberKinds c))
  else none

namespace Symbols

/-- What the members of an enum carry, if the class is an enum by bases up to
this depth. -/
def enumTypeWithin (t : Symbols) : Nat → ProgramClass → Option TypeRef
  | 0, _ => none
  | depth + 1, c =>
    let traits :=
      c.decl.bases.foldl (EnumTraits.add t (t.enumTypeWithin depth) c.scope) {}
    traits.type? c.decl

def enumType (t : Symbols) (c : ProgramClass) : Option TypeRef :=
  t.enumTypeWithin maxBaseDepth c

/-! ## Records -/

/-- Whether a class, or a base of it up to this depth, is a
record of its own. -/
def reachesRecord (t : Symbols) : Nat → ProgramClass → Bool
  | 0, c => c.decl.isRecord
  | depth + 1, c => c.decl.isRecord || (t.bases c).any (t.reachesRecord depth)

/-- What comes in the way of telling whether a class is a record up to this
depth: decorators are looked at class by class, until one makes it a record. -/
def recordBreakdown? (t : Symbols) : Nat → ProgramClass → Option Breakdown
  | 0, c => namingBreakdown? c.decl.decorators
  | depth + 1, c =>
    match namingBreakdown? c.decl.decorators with
    | some b => some b
    | none =>
      if c.decl.isRecord then none
      else
        let passed := (t.bases c).takeWhile (!t.reachesRecord depth ·)
        ((t.bases c).take (passed.length + 1)).findSome?
          (t.recordBreakdown? depth)

/-- Whether a class is a record by itself or by its bases. An enum never is. -/
def isRecord (t : Symbols) (c : ProgramClass) : Bool :=
  (t.enumType c).isNone && t.reachesRecord maxBaseDepth c

/-- What comes in the way of telling whether a class is a record. -/
def breakdown? (t : Symbols) (c : ProgramClass) : Option Breakdown :=
  if (t.enumType c).isSome then none else t.recordBreakdown? maxBaseDepth c

end Symbols

end BridgeBindings
