/-!
# Log records

What the stages report while they work. A record keeps where it comes from; how
it is shown depends on where it goes.
-/

namespace BridgeBindings

inductive LogLevel where
  | debug | info | warning | error
  deriving DecidableEq, Repr, Inhabited

namespace LogLevel

def text : LogLevel → String
  | .debug => "DEBUG"
  | .info => "INFO"
  | .warning => "WARNING"
  | .error => "ERROR"

def rank : LogLevel → Nat
  | .debug => 10
  | .info => 20
  | .warning => 30
  | .error => 40

end LogLevel

/-- The stage that a record comes from. -/
inductive LogSource where
  | program | scan | package | resolver | surface | usage | analysis |
      emitter | commandLine
  deriving DecidableEq, Repr, Inhabited

def LogSource.text : LogSource → String
  | .program => "bindgen"
  | .scan => "bindgen.fs_scan"
  | .package => "bindgen.package"
  | .resolver => "bindgen.resolver"
  | .surface => "bindgen.entrypoints"
  | .usage => "bindgen.usage"
  | .analysis => "bindgen.analyze"
  | .emitter => "bindgen.emitter"
  | .commandLine => "bindgen.cli"

structure LogRecord where
  level : LogLevel
  source : LogSource
  message : String
  deriving DecidableEq, Repr, Inhabited

/-- A record as a log file shows it, less its date. -/
def LogRecord.text (r : LogRecord) : String :=
  r.level.text ++ " " ++ r.source.text ++ ": " ++ r.message

/-- A record as the console shows it. -/
def LogRecord.consoleText (r : LogRecord) : String :=
  "[bindgen] " ++ r.level.text ++ " " ++ r.message

abbrev Log := List LogRecord

/-- The records from this level up. -/
def Log.atLeast (log : Log) (level : LogLevel) : Log :=
  List.filter (fun r => decide (level.rank ≤ r.level.rank)) log

end BridgeBindings
