import BridgeBindings.Package.Basic
import BridgeBindings.Text.Quoted

/-!
# Packages as templates show them

A template can show every attribute of a package. A record is shown by its name
with its members in parentheses, a list in brackets, a table in braces, and text
in quotes; what is missing is `None`. An attribute that has to be called is
shown as such, with the package it belongs to.
-/

namespace BridgeBindings.Render.Shown

def truth (b : Bool) : String := if b then "True" else "False"

def text (s : String) : String := Text.quoted s

def optional {α : Type} (shown : α → String) : Option α → String
  | some a => shown a
  | none => "None"

def list {α : Type} (shown : α → String) (items : List α) : String :=
  "[" ++ ", ".intercalate (items.map shown) ++ "]"

def comments (cs : List CodeText) : String := list Text.quotedText cs

def table {α : Type} (shown : α → String) (t : Table α) : String :=
  "\x7b" ++ ", ".intercalate
    (t.entries.map fun (name, a) => text name ++ ": " ++ shown a) ++ "\x7d"

def record (name : String) (members : List (String × String)) : String :=
  name ++ "(" ++
    ", ".intercalate
      (members.map fun (member, shown) => member ++ "=" ++ shown) ++ ")"

/-! ## Types -/

/-- A type of a kind, given by its name in capitals and in small letters. -/
def typeOf (kind word : String) (name package elem key : Option String)
    (external : Bool) : String :=
  record "TypeRef" [("kind", "<TypeKind." ++ kind ++ ": " ++ text word ++ ">"),
    ("name", optional text name), ("package", optional text package),
    ("elem", optional id elem), ("key", optional id key),
    ("external", truth external)]

def type : TypeRef → String
  | .primitive p =>
      typeOf "PRIMITIVE" "primitive" (some p.text) none none none false
  | .struct key =>
      typeOf "STRUCT" "struct" (some key.name) (some key.package)
        none none false
  | .external name => typeOf "STRUCT" "struct" (some name) none none none true
  | .pointer elem =>
      typeOf "POINTER" "pointer" none none (some (type elem)) none false
  | .sequence elem =>
      typeOf "SEQUENCE" "sequence" none none (some (type elem)) none false
  | .mapping key elem =>
    typeOf "MAPPING" "mapping" none none (some (type elem))
      (some (type key)) false
  | .any => typeOf "ANY" "any" none none none none false

/-! ## Structs and methods -/

def field (f : StructField) : String :=
  record "StructField" [("name", text f.name), ("type", type f.type),
    ("comments", comments f.comments)]

def struct (s : Struct) : String :=
  record "Struct"
    [("package", text s.package), ("module", text s.module),
      ("name", text s.name),
    ("fields", list field s.fields), ("comments", comments s.comments)]

def param (p : MethodParam) : String :=
  record "Param" [("name", text p.name), ("type", type p.type)]

def method (m : BoundMethod) : String :=
  record "BoundMethod"
    [("package", text m.package), ("struct_name", text m.structName),
    ("name", text m.name), ("params", list param m.params),
    ("result", optional type m.result), ("comments", comments m.comments),
    ("is_async", truth m.isAsync)]

/-! ## Packages -/

/-- The members of a package; its name stands here in quotes. -/
def members (p : Package) : List (String × String) :=
  [("name", text p.name), ("is_root", truth p.isRoot),
    ("structs", table struct p.structs),
    ("package_references", list text p.references),
    ("unresolved_references", list text p.unresolved),
    ("structs_used_as_data", list text p.usedAsData),
    ("bound_methods", list method p.methods)]

def package (p : Package) : String := record "Package" (members p)

/-- The attributes of a package that have to be called. -/
def callable : List String :=
  ["declaration_references", "struct_is_used_as_data", "data_structs",
    "internal_structs", "services"]

/-- The text of an attribute of a package; the name shows without its quotes. -/
def attribute? (p : Package) (name : String) : Option String :=
  if name = "name" then some p.name
  else if callable.contains name then
    some ("<bound method Package." ++ name ++ " of " ++ package p ++ ">")
  else (members p).lookup name

end BridgeBindings.Render.Shown
