import BridgeBindings.Text.Blank

/-!
# Arguments

The arguments of a command: options, which begin with a dash, and the rest. A
long option may be cut short as long as it is the only one that begins so; its
value stands behind it or behind an equals sign. Short options without values
may be written together.
-/

namespace BridgeBindings.CommandLine

/-- An option of a command. -/
structure OptionRule where
  names : List String
  /-- What its value is stored under, or the mark it leaves. -/
  key : String
  takesValue : Bool
  deriving Repr

/-- How an argument counts. -/
inductive ArgKind where
  | plain
  | option (rule : OptionRule) (value : Option String)
  | unknown
  | ambiguous
  deriving Repr

/-- Splits at the first equals sign. -/
def splitValue (arg : String) : Option (String × String) :=
  let cs := arg.toList
  let name := cs.takeWhile (· ≠ '=')
  if name.length = cs.length then none
  else some (String.ofList name, String.ofList (cs.drop (name.length + 1)))

def ruleNamed? (rules : List OptionRule) (name : String) : Option OptionRule :=
  rules.find? (·.names.contains name)

/-- The options that an argument may be a short form of, each with its value. -/
def candidates (rules : List OptionRule) (arg : String) :
    List (OptionRule × Option String) :=
  if arg.startsWith "--" then
    let (name, value) := match splitValue arg with
      | some (name, value) => (name, some value)
      | none => (arg, none)
    rules.flatMap fun r =>
      (r.names.filter (·.startsWith name)).map fun _ => (r, value)
  else
    let short := String.ofList (arg.toList.take 2)
    let rest := String.ofList (arg.toList.drop 2)
    rules.flatMap fun r => r.names.filterMap fun n =>
      if n = short then some (r, some rest)
      else if n.startsWith arg then some (r, none)
      else none

/-- Digits, with a point among or before them. -/
def isNumber (arg : String) : Bool :=
  match arg.toList with
  | '-' :: cs =>
    match cs.dropWhile Char.isDigit with
    | [] => !cs.isEmpty
    | '.' :: ds => !ds.isEmpty && ds.all Char.isDigit
    | _ => false
  | _ => false

def classify (rules : List OptionRule) (arg : String) : ArgKind :=
  if !arg.startsWith "-" || arg.length = 1 then .plain
  else
    match ruleNamed? rules arg with
    | some r => .option r none
    | none =>
      match (splitValue arg).bind fun (name, value) =>
          (ruleNamed? rules name).map (·, value) with
      | some (r, value) => .option r (some value)
      | none =>
        match candidates rules arg with
        | [(r, value)] => .option r value
        | _ :: _ => .ambiguous
        | [] =>
            if isNumber arg || arg.toList.contains ' ' then .plain else .unknown

/-- What arguments say: the values of options and plain arguments in order. -/
structure Parsed where
  options : List (String × String) := []
  marks : List String := []
  plain : List String := []
  extras : List String := []
  deriving Repr, Inhabited

def Parsed.value? (p : Parsed) (key : String) : Option String :=
  p.options.lookup key

def Parsed.marked (p : Parsed) (key : String) : Bool := p.marks.contains key

def Parsed.mark (p : Parsed) (r : OptionRule) : Parsed :=
  { p with marks := r.key :: p.marks }

def Parsed.set (p : Parsed) (r : OptionRule) (value : String) : Parsed :=
  { p with options := (r.key, value) :: p.options }

/-- Why the arguments are not read to the end. -/
inductive ArgStop where
  | help | misuse
  deriving DecidableEq, Repr, Inhabited

/-- Takes the value of an option from the arguments behind it. -/
def takeValue (rules : List OptionRule) (p : Parsed) (r : OptionRule) :
    List String → Except ArgStop (Parsed × List String)
  | value :: args =>
    match value, classify rules value with
    | "--", _ => .error .misuse
    | _, .plain => .ok (p.set r value, args)
    | _, _ => .error .misuse
  | [] => .error .misuse

/-- Takes an option without a value, and the short options written behind it. -/
def takeMarks (rules : List OptionRule) (p : Parsed) (r : OptionRule)
    (args : List String) : List Char → Except ArgStop (Parsed × List String)
  | [] => if r.key = "help" then .error .help else .ok (p.mark r, args)
  | c :: cs =>
    match ruleNamed? rules (String.ofList ['-', c]) with
    | none => .error .misuse
    | some next =>
      if r.key = "help" then .error .help
      else if next.takesValue then
        if cs.isEmpty then takeValue rules (p.mark r) next args
        else .ok ((p.mark r).set next (String.ofList cs), args)
      else takeMarks rules (p.mark r) next args cs

/-- Takes an option that stands before some arguments. -/
def takeOption (rules : List OptionRule) (p : Parsed) (arg : String)
    (r : OptionRule) (value : Option String) (args : List String) :
    Except ArgStop (Parsed × List String) :=
  if r.takesValue then
    match value with
    | some v => .ok (p.set r v, args)
    | none => takeValue rules p r args
  else
    match value with
    | none => takeMarks rules p r args []
    | some v =>
      if arg.startsWith "--" || v.isEmpty then .error .misuse
      else takeMarks rules p r args v.toList

/-- Puts a plain argument where it is wanted, or with those left over. -/
def Parsed.place (count : Nat) (p : Parsed) (arg : String) : Parsed :=
  if p.plain.length < count then { p with plain := p.plain ++ [arg] }
  else { p with extras := p.extras ++ [arg] }

/-- Reads arguments, one or two at a time; so many plain ones are wanted. -/
def readAll (rules : List OptionRule) (count : Nat) :
    Nat → Parsed → List String → Except ArgStop Parsed
  | 0, p, _ | _, p, [] => .ok p
  | steps + 1, p, arg :: args =>
    if arg = "--" then .ok (args.foldl (Parsed.place count) p)
    else
      match classify rules arg with
      | .plain => readAll rules count steps (p.place count arg) args
      | .unknown =>
          readAll rules count steps { p with extras := p.extras ++ [arg] } args
      | .ambiguous => .error .misuse
      | .option r value =>
        match takeOption rules p arg r value args with
        | .ok (p, args) => readAll rules count steps p args
        | .error e => .error e

/-- Reads the options in front of a command; the command and what follows it are
the plain arguments. -/
def readUpToCommand (rules : List OptionRule) : Nat → Parsed → List String →
    Except ArgStop Parsed
  | 0, p, _ | _, p, [] => .ok p
  | steps + 1, p, arg :: args =>
    if arg = "--" then .error .misuse
    else
      match classify rules arg with
      | .plain => .ok { p with plain := arg :: args }
      | .unknown =>
          readUpToCommand rules steps
            { p with extras := p.extras ++ [arg] } args
      | .ambiguous => .error .misuse
      | .option r value =>
        match takeOption rules p arg r value args with
        | .ok (p, args) => readUpToCommand rules steps p args
        | .error e => .error e

end BridgeBindings.CommandLine
