import BridgeBindings.CommandLine.Run

/-!
# The program

The commands on real files: what a command needs of the file system is
read into a file tree, the command runs on that, and the files that it
changed are written.
-/

namespace BridgeBindings.CommandLine

/-- The tree of what is at a path. Directories are gone into as far as `keep`
admits their names, seen from the path. -/
partial def observe (path : String) (keep : List String → Bool)
    (place : List String) : IO (Option Entry) := do
  let here := (← IO.currentDir) / path
  if ← here.isDir then
    let mut entries := []
    for e in ← here.readDir do
      let inner := place ++ [e.fileName]
      let isKept ← if ← e.path.isDir then pure (keep inner) else pure true
      if isKept then
        if let some entry ← observe (Path.join path e.fileName) keep inner then
          entries := (e.fileName, entry) :: entries
    return some (.directory entries)
  else if ← here.pathExists then
    return some (.file (← IO.FS.readBinFile here).toList)
  else return none

/-- Puts what is at a path into a tree. -/
def withPath (t : FileTree) (path : String) (keep : List String → Bool) :
    IO FileTree := do
  match ← observe path keep [] with
  | some entry => return ⟨t.root.put (Path.names path) entry⟩
  | none => return t

/-- What a command needs of the file system. -/
def observed (i : Invocation) : IO FileTree := do
  let t ← withPath ⟨.empty⟩ (Path.join i.path "pyproject.toml") fun _ => false
  match Config.load t i.path i.overrides with
  | .error _ => return t
  | .ok config =>
    let moduleDir := Path.absolute config.modulePath
    let t ← withPath t i.path (Program.admits config config.root moduleDir)
    let t ← withPath t moduleDir fun _ => true
    match config.templatesDir with
    | some directory => withPath t directory fun _ => false
    | none => return t

/-- Writes the files that differ between two trees. -/
def writeChanges (before after : FileTree) : IO Unit := do
  for names in after.filesBelow "/" (fun _ => true) do
    let path := "/" ++ Path.ofParts names
    match after.read path with
    | .ok content =>
      if (before.read path).toOption ≠ some content then
        IO.FS.createDirAll (Path.directoryName path)
        IO.FS.writeBinFile path ⟨content.toArray⟩
    | .error _ => pure ()

def appendLines (path : String) (log : Log) : IO Unit := do
  let handle ← IO.FS.Handle.mk path .append
  for r in log do
    handle.putStrLn r.text

def usage : String :=
  "usage: bindgen [-h] [-v] [--log-file LOG_FILE] " ++
    "\x7banalyze,generate\x7d path"

def perform (i : Invocation) : IO UInt32 := do
  let before ← observed i
  let report := run before i
  writeChanges before report.files
  IO.print report.output
  IO.eprint (consoleText report.log)
  match i.logFile with
  | some path => appendLines path report.log
  | none => pure ()
  return if report.exitCode = 0 then 0 else 1

end BridgeBindings.CommandLine

open BridgeBindings.CommandLine in
def main (args : List String) : IO UInt32 := do
  match invocation args with
  | .error .help =>
    IO.println usage
    return 0
  | .error .misuse =>
    IO.eprintln usage
    return 2
  | .ok i =>
    match i.command with
    | .serve =>
      IO.eprintln "bindgen: error: there is no server here"
      return 2
    | .analyze | .generate => perform (i.seenFrom (← IO.currentDir).toString)
