import BridgeBindings.CommandLine.Run

/-!
# The service

The same two commands over HTTP: a request names the root of a project and a few
settings, the answer is the result or the paths written. A root that is no
directory and a bad configuration are told by status 400, a project that cannot
be analyzed or written by 422.
-/

namespace BridgeBindings.Service

/-- What is wrong with a member of a request. -/
inductive FieldMistake where
  | missing | notText
  /-- The request itself is no object. -/
  | notAnObject
  deriving DecidableEq, Repr, Inhabited

structure FieldProblem where
  field : Option String
  mistake : FieldMistake
  deriving DecidableEq, Repr, Inhabited

/-- The body of an answer. -/
inductive Content where
  | json (j : Json)
  | detail (text : String)
  | problems (problems : List FieldProblem)
  deriving Repr, Inhabited

/-- An answer, or a failure that is not expected. -/
inductive Response where
  | answer (status : Nat) (content : Content)
  | crash (f : CommandLine.Failure)

inductive Route where
  | analyze | generate
  /-- A page that does not take requests of this kind. -/
  | page
  deriving DecidableEq, Repr, Inhabited

def routes : List (String × Route) :=
  [("/analyze", .analyze), ("/generate", .generate), ("/docs", .page),
    ("/redoc", .page), ("/openapi.json", .page),
    ("/docs/oauth2-redirect", .page)]

/-- The route of a URL, with or without slashes at its end. -/
def route? (url : String) : Option Route :=
  let path := url.toList.takeWhile (· ≠ '?')
  let bare := (path.reverse.dropWhile (· = '/')).reverse
  routes.lookup (String.ofList bare)

/-- The optional members of a request: settings of the project. -/
def settingNames : Route → List String
  | .generate => ["bridge_module", "entry_file", "module_dir"]
  | _ => ["bridge_module", "entry_file"]

def rootProblems (body : Json) : List FieldProblem :=
  match body.get? "root_path" with
  | none => [⟨some "root_path", .missing⟩]
  | some (.text _) => []
  | some _ => [⟨some "root_path", .notText⟩]

def settingProblems (body : Json) (name : String) : List FieldProblem :=
  match body.get? name with
  | none | some .null | some (.text _) => []
  | some _ => [⟨some name, .notText⟩]

/-- What is wrong with a request, member by member. -/
def problemsOf (route : Route) (body : Json) : List FieldProblem :=
  match body with
  | .object _ =>
      (settingNames route).flatMap (settingProblems body) ++ rootProblems body
  | .null => [⟨none, .missing⟩]
  | _ => [⟨none, .notAnObject⟩]

def overridesOf (route : Route) (body : Json) : List (String × Setting) :=
  (settingNames route).filterMap fun name =>
    ((body.get? name).bind Json.text?).map fun value => (name, .text value)

def failed (f : Fault) : Response :=
  let failure := CommandLine.Failure.fault f
  if failure.isReported then .answer 422 (.detail f.text) else .crash failure

/-- An answer of a document; there are no bytes for one with a torn text. -/
def answered (j : Json) : Response :=
  if j.isTorn then .crash (.fault (.broken .surrogate))
    else .answer 200 (.json j)

def perform (files : FileTree) (route : Route) (config : Config) :
    Response × FileTree :=
  match route with
  | .generate =>
    let (answer, w) := BridgeBindings.generate files config
    match answer with
    | .ok written =>
        (.answer 200 (.json (.object [("written", Json.texts written)])),
          w.files)
    | .error f => (failed f, w.files)
  | _ =>
    match (BridgeBindings.analyze files config).1 with
    | .ok result => (answered result.report, files)
    | .error f => (failed f, files)

/-- Answers a request, and the file tree afterwards. -/
def respond (files : FileTree) (url : String) (body : Json) :
    Response × FileTree :=
  match route? url with
  | none => (.answer 404 (.detail "Not Found"), files)
  | some .page => (.answer 405 (.detail "Method Not Allowed"), files)
  | some route =>
    match problemsOf route body with
    | [] =>
      let root := Path.absolute
        (((body.get? "root_path").bind Json.text?).getD "")
      if !files.isDirectory root then
        (.answer 400 (.detail ("Invalid root_path: " ++ root)), files)
      else
        match Config.load files root (overridesOf route body) with
        | .ok config => perform files route config
        | .error f =>
          if f.isReported then (.answer 400 (.detail f.text), files)
          else (.crash (.config f), files)
    | problems => (.answer 422 (.problems problems), files)

end BridgeBindings.Service
