import BridgeBindings.Analysis.Summary
import BridgeBindings.Json

/-!
# Results as documents

The JSON form of types, packages and results.
-/

namespace BridgeBindings

open Json

/-- The members of a type's form; what a kind of type does not have is null. -/
def typeForm (kind : String) (name package elem key : Json) (external : Bool) :
    Json :=
  .object [("kind", .text kind), ("name", name), ("package", package),
    ("elem", elem), ("key", key), ("external", .bool external)]

def TypeRef.json : TypeRef → Json
  | .primitive p => typeForm "primitive" (.text p.text) .null .null .null false
  | .struct key =>
      typeForm "struct" (.text key.name) (.text key.package) .null .null false
  | .external name => typeForm "struct" (.text name) .null .null .null true
  | .pointer elem => typeForm "pointer" .null .null elem.json .null false
  | .sequence elem => typeForm "sequence" .null .null elem.json .null false
  | .mapping key elem => typeForm "mapping" .null .null elem.json key.json false
  | .any => typeForm "any" .null .null .null .null false

def StructField.json (f : StructField) : Json :=
  .object [("name", .text f.name), ("type", f.type.json),
    ("comments", codeTexts f.comments)]

def Struct.json (s : Struct) : Json :=
  .object [("package", .text s.package), ("module", .text s.module),
    ("name", .text s.name), ("fields", .array (s.fields.map (·.json))),
    ("comments", codeTexts s.comments)]

def MethodParam.json (p : MethodParam) : Json :=
  .object [("name", .text p.name), ("type", p.type.json)]

def BoundMethod.json (m : BoundMethod) : Json :=
  .object [("package", .text m.package), ("struct_name", .text m.structName),
    ("name", .text m.name), ("params", .array (m.params.map (·.json))),
    ("result", ofOption TypeRef.json m.result),
    ("comments", codeTexts m.comments), ("is_async", .bool m.isAsync)]

def tableJson {α : Type} (f : α → Json) (t : Table α) : Json :=
  .object (t.entries.map fun (name, a) => (name, f a))

def Package.json (p : Package) : Json :=
  .object [("name", .text p.name), ("is_root", .bool p.isRoot),
    ("structs", tableJson Struct.json p.structs),
    ("package_references", texts p.references),
    ("unresolved_references", texts p.unresolved),
    ("structs_used_as_data", texts p.usedAsData),
    ("bound_methods", .array (p.methods.map (·.json)))]

def Bridge.json (b : Bridge) : Json :=
  .object [("bridge_module", .text b.bridgeModule),
    ("alias", ofOption .text b.localName),
    ("entry_module", ofOption .text b.entryModule),
    ("bind_methods", texts b.bindMethods),
    ("bind_keyword", .text b.bindKeyword)]

def Surface.json (s : Surface) : Json :=
  .object [("bridge", s.bridge.json),
    ("entry_package", ofOption .text s.entryPackage),
    ("bound_structs", texts s.boundStructs),
    ("methods", .array (s.methods.map (·.json)))]

def AnalysisResult.json (r : AnalysisResult) : Json :=
  .object [("root", .text r.root), ("root_package", .text r.rootPackage),
    ("packages", tableJson Package.json r.packages),
    ("failures", tableJson (fun f => .text f.text) r.failures),
    ("surface", r.surface.json)]

def Summaries.json (s : Summaries) : Json :=
  .object [("global_overview", .text s.overview),
    ("per_package", tableJson .text s.packages)]

/-- A result with its summaries. -/
def AnalysisResult.report (r : AnalysisResult) : Json :=
  .object [("result", r.json), ("summaries", r.summaries.json)]

end BridgeBindings
