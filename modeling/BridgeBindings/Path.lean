import BridgeBindings.Text.Blank

/-!
# Paths

A path is a text of names with slashes between them. It is absolute if a slash
stands first; relative paths start at the root directory here, since nothing
else is known about where a program runs.
-/

namespace BridgeBindings.Path

/-- The parts between slashes, the empty ones included. -/
def parts (path : String) : List String := Text.split '/' path

def ofParts (parts : List String) : String := "/".intercalate parts

def isAbsolute (path : String) : Bool := path.toList.head? = some '/'

def endsInSlash (path : String) : Bool := path.toList.getLast? = some '/'

/-- A path seen from a directory; an absolute one is the same
from everywhere. -/
def join (directory path : String) : String :=
  if isAbsolute path then path
  else if directory.isEmpty || endsInSlash directory then directory ++ path
  else directory ++ "/" ++ path

/-! ## Normal form -/

/-- The slashes that an absolute path keeps in front: exactly two stay two. -/
def rootSlashes (path : String) : String :=
  match path.toList with
  | '/' :: '/' :: '/' :: _ => "/"
  | '/' :: '/' :: _ => "//"
  | '/' :: _ => "/"
  | _ => ""

/-- Takes one part onto a stack of parts, deepest first. A part `..` cancels the
one below it and does nothing at the root. -/
def push (absolute : Bool) (stack : List String) (part : String) :
    List String :=
  if part.isEmpty || part = "." then stack
  else if part = ".." then
    match stack with
    | [] => if absolute then [] else [".."]
    | top :: below => if top = ".." then ".." :: stack else below
  else part :: stack

/-- The shortest path with the same parts: no empty part, no `.`, and `..` only
where nothing is left to cancel. -/
def normalize (path : String) : String :=
  let stack := (parts path).foldl (push (isAbsolute path)) []
  let text := rootSlashes path ++ ofParts stack.reverse
  if text.isEmpty then "." else text

def absolute (path : String) : String := normalize (join "/" path)

/-! ## Relative paths -/

/-- The names on the way from the root directory. -/
def names (path : String) : List String :=
  (parts (absolute path)).filter (!·.isEmpty)

/-- What is left of two lists once the parts that they share in
front are gone. -/
def dropShared : List String → List String → List String × List String
  | a :: as, b :: bs => if a = b then dropShared as bs else (a :: as, b :: bs)
  | as, bs => (as, bs)

/-- The way from a directory to a path. -/
def relative (path directory : String) : String :=
  let (up, down) := dropShared (names directory) (names path)
  match List.replicate up.length ".." ++ down with
  | [] => "."
  | way => ofParts way

/-! ## Parts of a path -/

def baseName (path : String) : String := (parts path).getLast?.getD ""

/-- What stands before the last slash, without the slashes at its end unless
there is nothing else. -/
def directoryName (path : String) : String :=
  let cs := path.toList
  let head := (cs.reverse.dropWhile (· ≠ '/'))
  let bare := head.dropWhile (· = '/')
  String.ofList (if bare.isEmpty then head.reverse else bare.reverse)

/-- A path without the extension of its last part; dots that open the part open
no extension. -/
def withoutExtension (path : String) : String :=
  let back := path.toList.reverse
  let name := back.takeWhile (· ≠ '/')
  match name.dropWhile (· ≠ '.') with
  | '.' :: stem =>
    if stem.any (· ≠ '.')
      then String.ofList ((back.dropWhile (· ≠ '.')).drop 1).reverse else path
  | _ => path

end BridgeBindings.Path
