import BridgeBindings.Analysis.Document
import BridgeBindings.CommandLine.Arguments
import BridgeBindings.Config.Read
import BridgeBindings.Emit

/-!
# Running a command

The commands `analyze`, which prints a result as JSON, and `generate`, which
writes bindings. What a command reports goes to the console and, if wanted, to a
log file; a fault that is expected ends it with exit code one.
-/

namespace BridgeBindings.CommandLine

inductive Command where
  | analyze | generate | serve
  deriving DecidableEq, Repr, Inhabited

/-- What a command line asks for. -/
structure Invocation where
  command : Command
  path : String := ""
  verbose : Bool := false
  logFile : Option String := none
  overrides : List (String × Setting) := []

def helpRule : OptionRule := ⟨["-h", "--help"], "help", false⟩

def verboseRule : OptionRule := ⟨["-v", "--verbose"], "verbose", false⟩

def mainRules : List OptionRule :=
  [helpRule, verboseRule, ⟨["--log-file"], "log_file", true⟩]

def projectRules : List OptionRule :=
  [helpRule, ⟨["--entry"], "entry_file", true⟩,
    ⟨["--bridge"], "bridge_module", true⟩,
    ⟨["--templates"], "templates_dir", true⟩, verboseRule]

def rulesOf : Command → List OptionRule
  | .analyze => projectRules
  | .generate => projectRules ++ [⟨["--out"], "module_dir", true⟩]
  | .serve =>
    [helpRule, ⟨["--host"], "host", true⟩, ⟨["--port"], "port", true⟩,
      ⟨["--reload"], "reload", false⟩]

def commandNames : List (String × Command) :=
  [("analyze", .analyze), ("generate", .generate), ("serve", .serve)]

/-- How many plain arguments a command wants. -/
def plainCount : Command → Nat
  | .serve => 0
  | .analyze | .generate => 1

/-- Whether the port that a server is to listen at is a number. -/
def portIsNumber (p : Parsed) : Bool :=
  (p.options.filter (·.1 = "port")).all fun (_, value) =>
    (Text.trim value).toInt?.isSome

/-- Options that are settings of the project. -/
def overridesOf (p : Parsed) : List (String × Setting) :=
  ["entry_file", "bridge_module", "module_dir", "templates_dir"].filterMap
    fun name => (p.value? name).map fun value => (name, .text value)

def invocation (args : List String) : Except ArgStop Invocation := do
  let main ← readUpToCommand mainRules args.length {} args
  match main.plain with
  | [] => .error .misuse
  | name :: rest =>
    match commandNames.lookup name with
    | none => .error .misuse
    | some command =>
      let count := plainCount command
      let p ← readAll (rulesOf command) count rest.length {} rest
      if p.plain.length < count || !p.extras.isEmpty || !main.extras.isEmpty ||
        !portIsNumber p then
        .error .misuse
      else
        return {
          command
          path := p.plain.head?.getD ""
          verbose := main.marked "verbose" || p.marked "verbose"
          logFile := main.value? "log_file"
          overrides := overridesOf p }

/-- A command with its paths as they are seen from a directory. -/
def Invocation.seenFrom (directory : String) (i : Invocation) : Invocation :=
  { i with
    path := Path.join directory i.path
    logFile := i.logFile.map (Path.join directory)
    overrides := i.overrides.map fun (name, value) =>
      match name, value with
      | "templates_dir", .text path =>
        (name, .text (if path.isEmpty then path else Path.join directory path))
      | _, _ => (name, value) }

/-! ## Outcomes -/

/-- Why a command ends. -/
inductive Failure where
  | config (f : ConfigFault)
  | fault (f : Fault)
  deriving Repr, Inhabited

namespace Failure

def text : Failure → String
  | .config f => f.text
  | .fault f => f.text

/-- Whether the program expects this failure and reports it. -/
def isReported : Failure → Bool
  | .config f => f.isReported
  | .fault (.build _) | .fault (.notText _) => false
  | .fault (.broken _) | .fault .exhausted => false
  | .fault _ => true

end Failure

/-- What a command leaves: what it prints, what it logs, the file tree, and the
failure that ended it. -/
structure Report where
  files : FileTree
  output : String := ""
  log : Log := []
  failure : Option Failure := none

def Report.exitCode (r : Report) : Nat := if r.failure.isSome then 1 else 0

/-- Ends a command; a failure that is expected is logged. -/
def Report.fail (r : Report) (f : Failure) : Report :=
  { r with
    failure := some f
    log := if f.isReported then r.log ++ [⟨.error, .program, f.text⟩]
      else r.log }

def analyzeCommand (files : FileTree) (config : Config) : Report :=
  let (answer, log) := BridgeBindings.analyze files config
  match answer with
  | .error f => { files, log : Report }.fail (.fault f)
  | .ok result => { files, log, output := result.report.pretty ++ "\n" }

def wroteRecord (count : Nat) (directory : String) : LogRecord :=
  ⟨.info, .commandLine, "Wrote " ++ toString count ++
    " binding files to " ++ directory⟩

def generateCommand (files : FileTree) (config : Config) : Report :=
  let (answer, w) := BridgeBindings.generate files config
  match answer with
  | .error f => { files := w.files, log := w.log : Report }.fail (.fault f)
  | .ok written =>
    { files := w.files,
      log := w.log ++ [wroteRecord written.length config.modulePath] }

/-- Runs a command on a file tree; the log is cut to the level
that is wanted. -/
def run (files : FileTree) (i : Invocation) : Report :=
  let report :=
    match Config.load files i.path i.overrides with
    | .error f => { files : Report }.fail (.config f)
    | .ok config =>
      match i.command with
      | .analyze => analyzeCommand files config
      | .generate => generateCommand files config
      | .serve => { files }
  { report with
    log := report.log.atLeast (if i.verbose then .debug else .info) }

/-- What the console shows of a log. -/
def consoleText (log : Log) : String :=
  "".intercalate (log.map fun r => r.consoleText ++ "\n")

end BridgeBindings.CommandLine
