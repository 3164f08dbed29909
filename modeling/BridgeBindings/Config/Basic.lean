import BridgeBindings.Path

/-!
# Configuration

What a project says about itself: where its entry file is, how the bridge module
and the functions that bind to it are called, and where bindings go.
-/

namespace BridgeBindings

structure Config where
  root : String
  entryFile : String := "main.py"
  bridgeModule : String := "webbridge"
  bindMethods : List String := ["bind"]
  bindKeyword : String := "bind"
  rootPackage : String := "main"
  moduleDir : String := "frontend/backend"
  templatesDir : Option String := none
  excludeDirs : List String :=
    [".git", ".hg", ".venv", "venv", "node_modules", "dist",
      "build", "__pycache__", ".mypy_cache", ".pytest_cache", "tests"]
  deriving DecidableEq, Repr, Inhabited

namespace Config

def entryPath (c : Config) : String := Path.join c.root c.entryFile

/-- The directory that bindings are written into. -/
def modulePath (c : Config) : String := Path.join c.root c.moduleDir

end Config

end BridgeBindings
