import BridgeBindings.Config.Basic
import BridgeBindings.FileTree
import BridgeBindings.Text.Identifier
import BridgeBindings.Text.Quoted
import BridgeBindings.Text.Utf8
import BridgeBindings.Toml.Read

/-!
# Reading a configuration

Settings come from the project file and from whoever runs the program, whose
values count more. The settings together must be known, of the right kind and
sensible; every one that is not is named.
-/

namespace BridgeBindings

/-- A setting before it is checked. -/
inductive Setting where
  | text (value : String)
  | list (items : List Setting)
  | other
  deriving Repr, Inhabited

/-- What is wrong with a setting. -/
inductive Mistake where
  | notText | notAList | unknown
  | senseless (message : String)
  deriving DecidableEq, Repr, Inhabited

/-- A mistake, with the setting and the item of its list that it is in. -/
structure Problem where
  setting : String
  item : Option Nat := none
  mistake : Mistake
  deriving DecidableEq, Repr, Inhabited

/-- Why there is no configuration. -/
inductive ConfigFault where
  /-- The project file is no text. -/
  | unreadable (path : String)
  | invalid (path : String)
  /-- The entry of the tools is no table. -/
  | noTools (path : String)
  /-- The program's own entry is no table. -/
  | noSection (path : String)
  | problems (problems : List Problem)
  deriving DecidableEq, Repr, Inhabited

namespace ConfigFault

def text : ConfigFault → String
  | .unreadable path => path ++ ": not UTF-8"
  | .invalid path => path ++ ": invalid TOML"
  | .noTools path => path ++ ": [tool] must be a table"
  | .noSection path => path ++ ": [tool.bindgen] must be a table"
  | .problems _ => "invalid bindgen configuration"

/-- Whether the program expects this fault and reports it. -/
def isReported : ConfigFault → Bool
  | .unreadable _ | .noTools _ => false
  | .invalid _ | .noSection _ | .problems _ => true

end ConfigFault

namespace Config

/-! ## The project file -/

def settingOf : Toml → Setting
  | .text value => .text value
  | .array items => .list (items.map fun item => match item with
    | .text value => .text value
    | _ => .other)
  | _ => .other

/-- The program's section of a project file. -/
def sectionOf (path : String) (document : Toml.Entries) :
    Except ConfigFault Toml.Entries :=
  match document.lookup "tool" with
  | none => .ok []
  | some (.table tools) =>
    match tools.lookup "bindgen" with
    | none => .ok []
    | some (.table entries) => .ok entries
    | some _ => .error (.noSection path)
  | some _ => .error (.noTools path)

/-- The settings in the project file; a project need not have one. -/
def fileSettings (files : FileTree) (root : String) :
    Except ConfigFault (Table Setting) :=
  let path := Path.join root "pyproject.toml"
  if !files.isFile path then .ok .empty
  else
    match files.read path with
    | .error _ => .ok .empty
    | .ok bytes =>
      match Text.decodeUtf8 bytes with
      | .error _ => .error (.unreadable path)
      | .ok text =>
        match Toml.read text with
        | none => .error (.invalid path)
        | some document =>
          (sectionOf path document).map fun entries =>
            .ofList (entries.map fun (name, v) => (name, settingOf v))

/-! ## Checking -/

def textSettings : List String :=
  ["entry_file", "bridge_module", "bind_keyword", "root_package", "module_dir",
    "templates_dir"]

/-- The settings that must be dotted names. -/
def nameSettings : List String := ["bridge_module", "root_package"]

def listSettings : List String := ["bind_methods", "exclude_dirs"]

def textProblems (name value : String) : List Problem :=
  if nameSettings.contains name && !Text.isDottedIdentifier value then
    [⟨name, none,
      .senseless (Text.quoted value ++ " is not a dotted Python identifier")⟩]
  else []

def isText : Setting → Bool
  | .text _ => true
  | _ => false

def listProblems (name : String) (items : List Setting) : List Problem :=
  if name = "bind_methods" && items.isEmpty then
    [⟨name, none, .senseless "at least one bind method name is required"⟩]
  else
    (items.zipIdx.filter fun (item, _) => !isText item).map fun (_, i) =>
      ⟨name, some i, .notText⟩

def problemsOf (name : String) (s : Setting) : List Problem :=
  if textSettings.contains name then
    match s with
    | .text value => textProblems name value
    | _ => [⟨name, none, .notText⟩]
  else if listSettings.contains name then
    match s with
    | .list items => listProblems name items
    | _ => [⟨name, none, .notAList⟩]
  else if name = "root" then []
  else [⟨name, none, .unknown⟩]

def text? (settings : Table Setting) (name : String) : Option String :=
  match settings.get? name with
  | some (.text value) => some value
  | _ => none

def list? (settings : Table Setting) (name : String) : Option (List String) :=
  match settings.get? name with
  | some (.list items) => some (items.filterMap fun
    | .text value => some value
    | _ => none)
  | _ => none

/-- The configuration that settings make at a root; what is not set has its
default. -/
def ofSettings (root : String) (settings : Table Setting) : Config :=
  let base : Config := { root }
  { root
    entryFile := (text? settings "entry_file").getD base.entryFile
    bridgeModule := (text? settings "bridge_module").getD base.bridgeModule
    bindMethods := (list? settings "bind_methods").getD base.bindMethods
    bindKeyword := (text? settings "bind_keyword").getD base.bindKeyword
    rootPackage := (text? settings "root_package").getD base.rootPackage
    moduleDir := (text? settings "module_dir").getD base.moduleDir
    templatesDir := text? settings "templates_dir"
    excludeDirs := (list? settings "exclude_dirs").getD base.excludeDirs }

def check (root : String) (settings : Table Setting) :
    Except ConfigFault Config :=
  match settings.entries.flatMap fun (name, s) => problemsOf name s with
  | [] => .ok (ofSettings root settings)
  | problems => .error (.problems problems)

/-- The configuration of the project at a root. -/
def load (files : FileTree) (root : String)
    (overrides : List (String × Setting)) : Except ConfigFault Config := do
  let root := Path.absolute root
  let settings ← fileSettings files root
  check root (overrides.foldl (fun t (name, s) => t.insert name s) settings)

end Config

end BridgeBindings
