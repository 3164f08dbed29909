import BridgeBindings.Package.Basic
import BridgeBindings.Render.TypeScript
import BridgeBindings.Text.Blank

/-!
# The files of a package

Two files are written for a package: the declarations of its data structs and
services, and the stubs that call the services' methods across the bridge. Each
is a list of lines; a file that would export nothing says so.
-/

namespace BridgeBindings.Render

def lines (ls : List String) : String := "".intercalate (ls.map (· ++ "\n"))

/-- A line of documentation behind a mark, without blanks at its end. -/
def docLine (mark : String) (line : CodeText) : String :=
  Text.trimEnd (mark ++ line.shown)

def header (package : String) : String :=
  "// Code generated by bindgen from package " ++ package ++ ". DO NOT EDIT."

def exportsNothing : List String := ["", "export \x7b\x7d;"]

/-! ## Declarations -/

def importLine (package : String) : String :=
  "import type * as " ++ importName package ++ " from \"../" ++ package ++ "\";"

def fieldLines (package : String) (f : StructField) : List String :=
  f.comments.map (fun c => "\t" ++ docLine "// " c) ++
    ["\t" ++ f.name ++ ": " ++ typeScript package f.type ++ ";"]

def structLines (package : String) (s : Struct) : List String :=
  "" :: s.comments.map (docLine "// ") ++
    ["export interface " ++ s.name ++ " \x7b"] ++
    s.fields.flatMap (fieldLines package) ++ ["\x7d"]

def signature (package : String) (m : BoundMethod) : String :=
  let params := m.params.map fun p => paramName p.name ++ ": " ++
    typeScript package p.type
  m.name ++ "(" ++ ", ".intercalate params ++ "): Promise<" ++
    resultType package m.result ++ ">;"

def serviceLines (package service : String) (methods : List BoundMethod) :
    List String :=
  ["", "export interface " ++ service ++ " \x7b"] ++
    methods.flatMap (fun m =>
      m.comments.map (fun c => "\t" ++ docLine "// " c) ++
        ["\t" ++ signature package m]) ++
    ["\x7d", "", "export declare const " ++ service ++ ": " ++ service ++ ";"]

def declarationLines (p : Package) : List String :=
  header p.name :: p.references.map importLine ++
    p.dataStructs.flatMap (structLines p.name) ++
    p.services.flatMap
      (fun (service, methods) => serviceLines p.name service methods) ++
    (if p.dataStructs.isEmpty && p.services.isEmpty then exportsNothing else [])

/-- The declarations of a package. -/
def declarations (p : Package) : String := lines (declarationLines p)

/-- The comments that the declarations of a package show. -/
def declarationComments (p : Package) : List CodeText :=
  p.dataStructs.flatMap Struct.allComments ++ p.methods.flatMap (·.comments)

/-! ## Stubs -/

def methodLines (m : BoundMethod) : List String :=
  let params := ", ".intercalate (m.params.map fun p => paramName p.name)
  (if m.comments.isEmpty then []
    else "\t/**" ::
    m.comments.map (fun c => "\t" ++ docLine " * " c) ++ ["\t */"]) ++
    ["\t" ++ m.name ++ "(" ++ params ++ ") \x7b",
      "\t\treturn window.backend.call(\"" ++ m.qualifiedName ++ "\", [" ++
      params ++ "]);", "\t\x7d,"]

def stubLines (p : Package) : List String :=
  [header p.name, "// @ts-check"] ++
    p.services.flatMap (fun (service, methods) =>
      ["", "export const " ++ service ++ " = \x7b"] ++
        methods.flatMap methodLines ++ ["\x7d;"]) ++
    (if p.services.isEmpty then exportsNothing else [])

/-- The stubs of a package. -/
def stubs (p : Package) : String := lines (stubLines p)

/-- The comments that the stubs of a package show. -/
def stubComments (p : Package) : List CodeText := p.methods.flatMap (·.comments)

end BridgeBindings.Render
