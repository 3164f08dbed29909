import BridgeBindings.Analysis.Result

/-!
# Summaries

A result in a few lines: one for the project, and some for every package.
-/

namespace BridgeBindings

structure Summaries where
  overview : String
  packages : Table String
  deriving Repr

def commaJoin (names : List String) : String := ", ".intercalate names

/-- A line of a package's summary; nothing to list leaves it out. -/
def summaryLine (label : String) (names : List String) : List String :=
  if names.isEmpty then [] else ["  " ++ label ++ ": " ++ commaJoin names]

def Package.summary (p : Package) : String :=
  "\n".intercalate
    (["Package " ++ p.name ++ if p.isRoot then " (root)" else ""] ++
      summaryLine "Structs" (sortNames p.structs.keys) ++
      summaryLine "Data" p.usedAsData ++
      summaryLine "Methods" (p.methods.map (·.qualifiedName)) ++
      summaryLine "References" p.references ++
      summaryLine "External" p.unresolved)

namespace AnalysisResult

def overview (r : AnalysisResult) : String :=
  let packages := r.packages.values
  let structs := (packages.flatMap (·.structs.keys)).length
  let data := (packages.flatMap (·.usedAsData)).length
  "Project at " ++ r.root ++ ": " ++ toString packages.length ++
    " packages analyzed, " ++ toString r.failures.keys.length ++ " failed, " ++
      toString structs ++ " structs (" ++
    toString data ++ " data), " ++ toString r.surface.methods.length ++
      " exposed methods"

def failureSummary (package : String) (f : TypeFault) : String :=
  "Package " ++ package ++ ": failed: " ++ f.text

def summaries (r : AnalysisResult) : Summaries where
  overview := r.overview
  packages := .ofList (
    r.sortedPackages.map (fun p => (p.name, p.summary)) ++
      (sortNames r.failures.keys).filterMap fun name =>
        (r.failures.get? name).map fun f => (name, failureSummary name f))

end AnalysisResult

end BridgeBindings
