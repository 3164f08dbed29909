import BridgeBindings.Bridge.Surface
import BridgeBindings.Package.Basic

/-!
# Results

What an analysis comes to: the packages that resolved, the failures of those
that did not, and the exposed surface. Of several failures the root package's
counts most, and otherwise that of the package whose name comes first.
-/

namespace BridgeBindings

structure AnalysisResult where
  root : String
  rootPackage : String
  packages : Table Package := .empty
  failures : Table TypeFault := .empty
  surface : Surface

namespace AnalysisResult

def recordFailure (r : AnalysisResult) (package : String) (f : TypeFault) :
    AnalysisResult :=
  { r with failures := r.failures.insert package f }

/-- The failure that stands for all of them, if there is any. -/
def failure? (r : AnalysisResult) : Option TypeFault :=
  match r.failures.get? r.rootPackage with
  | some f => some f
  | none => (sortNames r.failures.keys).head?.bind r.failures.get?

/-- The packages by name. -/
def sortedPackages (r : AnalysisResult) : List Package :=
  (sortNames r.packages.keys).filterMap r.packages.get?

end AnalysisResult

end BridgeBindings
