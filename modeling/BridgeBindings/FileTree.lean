import BridgeBindings.Path
import BridgeBindings.Table

/-!
# File trees

A directory holds entries by name, each a file or a directory. A path is
followed name by name: every name but the last must be that of a directory,
and `..` leads back to the directory before. What may stop a reader or writer
is told by cause.
-/

namespace BridgeBindings

inductive Entry where
  | file (content : List UInt8)
  | directory (entries : List (String × Entry))
  deriving Inhabited

/-- Why the file system refuses. -/
inductive FileFault where
  | missing | notADirectory | isADirectory | exists
  deriving DecidableEq, Repr, Inhabited

namespace FileFault

def text : FileFault → String
  | .missing => "No such file or directory"
  | .notADirectory => "Not a directory"
  | .isADirectory => "Is a directory"
  | .exists => "File exists"

def number : FileFault → Nat
  | .missing => 2
  | .exists => 17
  | .notADirectory => 20
  | .isADirectory => 21

end FileFault

namespace Entry

def isDirectory : Entry → Bool
  | .directory _ => true
  | .file _ => false

def empty : Entry := .directory []

def child? (name : String) : Entry → Option Entry
  | .directory entries => entries.lookup name
  | .file _ => none

/-- The entry at the end of a list of names. -/
def at? (e : Entry) : List String → Option Entry
  | [] => some e
  | name :: rest => (e.child? name).bind (·.at? rest)

/-- Puts an entry at the end of a list of names; what is not there on the way
becomes a directory. -/
def put (e : Entry) (names : List String) (value : Entry) : Entry :=
  match names with
  | [] => value
  | name :: rest =>
    let entries := match e with
      | .directory entries => entries
      | .file _ => []
    let inner := (entries.lookup name).getD empty
    .directory (Table.put name (inner.put rest value) entries)

def remove (e : Entry) : List String → Entry
  | [] => empty
  | [name] =>
    match e with
    | .directory entries => .directory (entries.filter (·.1 ≠ name))
    | .file _ => e
  | name :: rest =>
    match e.child? name with
    | some inner => e.put [name] (inner.remove rest)
    | none => e

end Entry

/-- A file tree, from the root directory on. -/
structure FileTree where
  root : Entry
  deriving Inhabited

namespace FileTree

/-- Follows the names of a path from a directory, given from the inside out. -/
def follow (t : FileTree) (place : List String) :
    List String → Except FileFault (List String)
  | [] => .ok place
  | ".." :: rest => enter t place (fun place => follow t place.tail rest)
  | [name] => enter t place fun place => .ok (name :: place)
  | name :: rest => enter t place fun place => follow t (name :: place) rest
where
  /-- Goes on from a place if that is a directory. -/
  enter (t : FileTree) (place : List String)
  (next : List String → Except FileFault (List String)) :
      Except FileFault (List String) :=
    match t.root.at? place.reverse with
    | some (.directory _) => next place
    | some (.file _) => .error .notADirectory
    | none => .error .missing

/-- The names that a path leads along; the last need not be there. -/
def locate (t : FileTree) (path : String) : Except FileFault (List String) :=
  let steps := (Path.parts path).filter fun part =>
    !(part.isEmpty || part = ".")
  (t.follow [] steps).map List.reverse

def entry? (t : FileTree) (path : String) : Option Entry :=
  match t.locate path with
  | .ok names => t.root.at? names
  | .error _ => none

def isDirectory (t : FileTree) (path : String) : Bool :=
  (t.entry? path).any (·.isDirectory)

def isFile (t : FileTree) (path : String) : Bool :=
  (t.entry? path).any (!·.isDirectory)

/-! ## Reading and writing -/

def read (t : FileTree) (path : String) : Except FileFault (List UInt8) :=
  match t.locate path with
  | .error f => .error f
  | .ok names =>
    match t.root.at? names with
    | some (.file content) => .ok content
    | some (.directory _) => .error .isADirectory
    | none => .error .missing

/-- Writes a file into a directory that is there. -/
def write (t : FileTree) (path : String) (content : List UInt8) :
    Except FileFault FileTree :=
  match t.locate path with
  | .error f => .error f
  | .ok names =>
    match t.root.at? names with
    | some (.directory _) => .error .isADirectory
    | _ => .ok ⟨t.root.put names (.file content)⟩

def makeDirectory (t : FileTree) (path : String) : Except FileFault FileTree :=
  match t.locate path with
  | .error f => .error f
  | .ok names =>
    match t.root.at? names with
    | some _ => .error .exists
    | none => .ok ⟨t.root.put names .empty⟩

/-- Makes the directories of a list of paths, outermost first. One that is there
already is fine; of the last one this must be a directory. -/
def makeEach (t : FileTree) : List String → Except FileFault FileTree
  | [] => .ok t
  | path :: rest =>
    match t.makeDirectory path with
    | .ok t => t.makeEach rest
    | .error .exists =>
        if rest.isEmpty && !t.isDirectory path then .error .exists
          else t.makeEach rest
    | .error f => if t.isDirectory path then t.makeEach rest else .error f

/-- A path and the paths of the directories that it stands in,
innermost first. -/
def ancestors (path : String) : Nat → List String
  | 0 => [path]
  | fuel + 1 =>
    let parent := Path.directoryName path
    if parent.isEmpty || parent = path then [path]
      else path :: ancestors parent fuel

/-- Makes a directory together with those that are missing on the way to it. -/
def makeDirectories (t : FileTree) (path : String) :
    Except FileFault FileTree :=
  let missing := match ancestors path path.length with
    | [] => []
    | last :: outer => last :: outer.takeWhile fun p => (t.entry? p).isNone
  t.makeEach missing.reverse

/-! ## Walking -/

mutual

/-- The files below an entry, each with the names that lead to it: first those
of the directory itself and then those of its subdirectories, both by name. Only
the subdirectories that `keep` admits are gone into. -/
def filesOf (keep : List String → Bool) (place : List String) :
    Entry → List (List String)
  | .file _ => []
  | .directory entries =>
    let files := entries.filterMap fun (name, e) => if e.isDirectory then none
      else some name
    let inner := (innerFiles keep place entries).mergeSort fun a b =>
      decide (a.1 ≤ b.1)
    (sortNames files).map (fun name => place ++ [name]) ++ inner.flatMap (·.2)

def innerFiles (keep : List String → Bool) (place : List String) :
    List (String × Entry) → List (String × List (List String))
  | [] => []
  | (name, e) :: rest =>
    let later := innerFiles keep place rest
    if e.isDirectory && keep (place ++ [name]) then
      (name, filesOf keep (place ++ [name]) e) :: later
    else later

end

/-- The names that lead to the files below a directory, seen from there. -/
def filesBelow (t : FileTree) (directory : String) (keep : List String → Bool) :
    List (List String) :=
  match t.entry? directory with
  | some e => filesOf keep [] e
  | none => []

end FileTree

end BridgeBindings
