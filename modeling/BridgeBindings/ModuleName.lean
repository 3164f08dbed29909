import BridgeBindings.Path
import BridgeBindings.Import

/-!
# Names of modules and packages

A file's module is its way from the root directory, written with dots; a
package's own file takes the name of its directory. A package is a directory.
What stands directly in the root directory has a name that the configuration
gives.
-/

namespace BridgeBindings

def dashesToUnderscores (s : String) : String :=
  String.ofList (s.toList.map fun c => if c = '-' then '_' else c)

def moduleName (root path rootPackage : String) : String :=
  let way := Path.withoutExtension (Path.relative path root)
  let name := dashesToUnderscores
    (dotJoin ((Path.parts way).filter (· ≠ "__init__")))
  if name.isEmpty then rootPackage else name

def packageName (root directory rootPackage : String) : String :=
  match Path.relative directory root with
  | "." => rootPackage
  | way => dashesToUnderscores (dotJoin (Path.parts way))

end BridgeBindings
