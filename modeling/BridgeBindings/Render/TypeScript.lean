import BridgeBindings.TypeRef

/-!
# Types and names as TypeScript writes them

A struct is named as it is seen from the package that mentions it: by its own
name inside its package, and through the name under which its package is
imported elsewhere.
-/

namespace BridgeBindings.Render

/-- Names that a strict-mode module cannot bind as parameters. -/
def reserved : List String :=
  ["arguments", "case", "catch", "const", "debugger", "default",
    "delete", "do", "enum", "eval", "export", "extends", "function",
    "implements", "instanceof", "interface", "let",
    "new", "null", "package", "private", "protected", "public", "static",
    "super", "switch", "this", "throw", "true", "false", "typeof", "var",
    "void", "yield", "await"]

/-- The identifier that a package is imported under. -/
def importName (package : String) : String :=
  String.ofList (package.toList.map fun c => if c = '.' then '_' else c)

/-- A parameter's name, kept apart from the reserved ones by an underscore. -/
def paramName (name : String) : String :=
  if reserved.contains name then name ++ "_" else name

def primitive : Primitive → String
  | .boolean => "boolean"
  | .integer | .float | .byte => "number"
  | .string => "string"

/-- A type as seen from a package. -/
def typeScript (package : String) : TypeRef → String
  | .primitive p => primitive p
  | .struct key =>
    if key.package = package then key.name
      else importName key.package ++ "." ++ key.name
  | .external _ => "any"
  | .pointer elem => typeScript package elem ++ " | null"
  | .sequence elem => "Array<" ++ typeScript package elem ++ ">"
  | .mapping key elem =>
    let key := if typeScript package key = "number" then "number" else "string"
    "Record<" ++ key ++ ", " ++ typeScript package elem ++ ">"
  | .any => "any"

def resultType (package : String) : Option TypeRef → String
  | some t => typeScript package t
  | none => "void"

end BridgeBindings.Render
