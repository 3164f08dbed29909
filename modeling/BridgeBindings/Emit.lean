import BridgeBindings.Analysis.Run
import BridgeBindings.Render.Bindings
import BridgeBindings.Render.Template

/-!
# Writing bindings

Every package that resolved gets a directory with two files. Each file is
rendered and written on its own, so a fault at the second leaves the first in
place. Only when all packages are written is a failure of the analysis told.
-/

namespace BridgeBindings

/-- The two files of a package. -/
inductive BindingFile where
  | declarations | stubs
  deriving DecidableEq, Repr

namespace BindingFile

def all : List BindingFile := [.declarations, .stubs]

def fileName : BindingFile → String
  | .declarations => "index.d.ts"
  | .stubs => "index.js"

def templateName : BindingFile → String
  | .declarations => "package.d.ts.j2"
  | .stubs => "package.js.j2"

/-- The text of a file by the program's own layout. -/
def render : BindingFile → Package → String
  | .declarations => Render.declarations
  | .stubs => Render.stubs

/-- The comments that a file shows. -/
def comments : BindingFile → Package → List CodeText
  | .declarations => Render.declarationComments
  | .stubs => Render.stubComments

/-- The text of a file, unless a comment in it is torn. -/
def text? (f : BindingFile) (p : Package) : Option String :=
  if (f.comments p).any (·.isTorn) then none else some (f.render p)

end BindingFile

/-- What writing works on: the file tree, and what has been logged. -/
structure Workspace where
  files : FileTree
  log : Log := []

/-- A step of writing; what is written stays when it stops. -/
abbrev Emit (α : Type) := ExceptT Fault (StateM Workspace) α

namespace Emit

def note (r : LogRecord) : Emit Unit :=
  modify fun w => { w with log := w.log ++ [r] }

/-- Changes the file tree, unless the file system refuses. -/
def change (step : FileTree → Except FileFault FileTree)
    (fault : FileFault → Fault) : Emit Unit :=
  do
    match step (← get).files with
    | .ok files => modify fun w => { w with files }
    | .error f => throw (fault f)

/-- The text of a file by a project's own templates. -/
def renderFrom (files : FileTree) (directory : String) (file : BindingFile)
    (p : Package) : Except Fault String :=
  let fault (message : String) :=
    Fault.template file.templateName p.name message
  let path := Path.join directory file.templateName
  if files.isFile path then
    match Source.readText files path with
    | .error _ => .error (.notText path)
    | .ok template =>
      match Render.fill template p with
      | some text => .ok text
      | none => .error (fault "invalid place")
  else .error (fault file.templateName)

/-- The text of a file, unless it is torn. A template directory without a name
is none, and a template shows comments with what is torn about them escaped. -/
def render (templatesDir : Option String) (file : BindingFile) (p : Package) :
    Emit (Option String) := do
  match templatesDir with
  | some directory =>
    if directory.isEmpty then return file.text? p
    else
      match renderFrom (← get).files directory file p with
      | .ok text => return some text
      | .error f => throw f
  | none => return file.text? p

def writeBytes (path : String) (bytes : List UInt8) : Emit Unit :=
  change (·.write path bytes) fun f =>
    .io path ("cannot write binding file: " ++ f.text)

/-- Writes a text. One that is torn leaves the file empty. -/
def writeFile (path : String) : Option String → Emit Unit
  | some text => writeBytes path (Text.encodeUtf8 text)
  | none => do
    writeBytes path []
    throw (.broken .surrogate)

def makeDirectory (path : String) : Emit Unit :=
  change (·.makeDirectories path) fun f =>
    .io path ("cannot create module directory: " ++ f.text)

def file (templatesDir : Option String) (directory : String) (p : Package)
    (f : BindingFile) : Emit String := do
  let path := Path.join directory f.fileName
  writeFile path (← render templatesDir f p)
  note ⟨.debug, .emitter, "Wrote " ++ path⟩
  return path

/-- Writes the files of a package and answers their paths. -/
def package (config : Config) (p : Package) : Emit (List String) := do
  let directory := Path.join config.modulePath p.name
  makeDirectory directory
  BindingFile.all.mapM (file config.templatesDir directory p)

/-- Writes the bindings of a project and answers their paths. -/
def bindings (config : Config) : Emit (List String) := do
  let w ← get
  let (answer, log) := analyze w.files config
  set { w with log := w.log ++ log }
  match answer with
  | .error f => throw f
  | .ok result =>
    let written ← result.sortedPackages.mapM (package config)
    match result.failure? with
    | some f => throw (.type f)
    | none => return written.flatten

end Emit

/-- Generates the bindings of a project: what is written or why not, and the
file tree and the log afterwards. -/
def generate (files : FileTree) (config : Config) :
    Except Fault (List String) × Workspace :=
  Emit.bindings config { files }

end BridgeBindings
