import BridgeBindings.Comment.Block
import BridgeBindings.Comment.Scan
import BridgeBindings.Fault
import BridgeBindings.FileTree
import BridgeBindings.ModuleName
import BridgeBindings.Syntax.Read
import BridgeBindings.Text.Quoted
import BridgeBindings.Text.Utf8

/-!
# Source files

A source file as the analysis reads it: where it is, what its module and package
are called, its tree, and its lines and comments.
-/

namespace BridgeBindings

structure Source where
  path : String
  relativePath : String
  module : String
  package : String
  isPackageInit : Bool
  tree : Syntax.Module
  notes : Annotated
  /-- How looking for comments ended. -/
  scanEnding : Comment.Ending

namespace Source

def cannotRead (path cause : String) : Fault :=
  .io path ("cannot read source: " ++ cause)

/-- The text of a file; every way to end a line is read as a line feed. -/
def readText (files : FileTree) (path : String) : Except Fault String :=
  match files.read path with
  | .error f =>
    .error (cannotRead path ("[Errno " ++ toString f.number ++ "] " ++ f.text ++
      ": " ++ Text.quoted path))
  | .ok bytes =>
    match Text.decodeUtf8 bytes with
    | .error f => .error (cannotRead path f.text)
    | .ok text => .ok (String.ofList (Text.unifyLineEnds text.toList))

/-- A source file below a root directory. -/
def read (files : FileTree) (root path rootPackage : String) :
    Except Fault Source := do
  let text ← readText files path
  match Syntax.readModule text with
  | .error row => .error (.source path "invalid syntax" (some row))
  | .ok tree =>
    let found := Comment.scan text
    return {
      path := path
      relativePath := Path.relative path root
      module := moduleName root path rootPackage
      package := packageName root (Path.directoryName path) rootPackage
      isPackageInit := Path.baseName path = "__init__.py"
      tree := tree
      notes := ⟨Text.lines text, found.comments⟩
      scanEnding := found.ending }

end Source

end BridgeBindings
