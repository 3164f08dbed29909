import BridgeBindings.Table

/-!
# TOML documents

The values of TOML, and a document while its lines are read. A document keeps,
besides its tables, which of them may not be declared again and which may not
change at all: what a header or a dotted key has opened, and what stands in
brackets or braces.
-/

namespace BridgeBindings

inductive Toml where
  | text (value : String)
  | integer (value : Int)
  | float (text : String)
  | boolean (value : Bool)
  | moment (text : String)
  | array (items : List Toml)
  | table (entries : List (String × Toml))
  deriving Repr, Inhabited

namespace Toml

/-- The names that lead to a value. -/
abbrev Key := List String

abbrev Entries := List (String × Toml)

def isNested : Toml → Bool
  | .array _ | .table _ => true
  | _ => false

/-- Changes the table at the end of a key, opening the tables that are
missing on the way. With `lists`, a key that leads to a list of tables means
the last one. -/
def update (lists : Bool) (change : Entries → Option Entries) :
    Key → Entries → Option Entries
  | [], es => change es
  | name :: rest, es =>
    match es.lookup name with
    | none => (update lists change rest []).map fun inner =>
        Table.put name (.table inner) es
    | some (.table inner) =>
      (update lists change rest inner).map fun inner =>
        Table.put name (.table inner) es
    | some (.array items) =>
      match lists, items.getLast? with
      | true, some (.table inner) =>
        (update lists change rest inner).map fun inner =>
          Table.put name (.array (items.dropLast ++ [.table inner])) es
      | _, _ => none
    | some _ => none

/-- Adds an entry that must be new. -/
def addNew (name : String) (value : Toml) (es : Entries) : Option Entries :=
  match es.lookup name with
  | some _ => none
  | none => some (Table.put name value es)

/-- Adds an empty table to a list of tables. -/
def addTable (name : String) (es : Entries) : Option Entries :=
  match es.lookup name with
  | none => some (Table.put name (.array [.table []]) es)
  | some (.array items) =>
      some (Table.put name (.array (items ++ [.table []])) es)
  | some _ => none

def splitKey (key : Key) : Key × String := (key.dropLast, key.getLast?.getD "")

/-- A document as far as it is read. -/
structure Document where
  entries : Entries := []
  /-- The table that the last header opened. -/
  header : Key := []
  /-- The tables that no header may open again. -/
  opened : List Key := []
  /-- What dotted keys have opened below the present header. -/
  opening : List Key := []
  /-- The values that nothing may be added to. -/
  closed : List Key := []

namespace Document

def isClosed (d : Document) (key : Key) : Bool :=
  d.closed.any (·.isPrefixOf key)

/-- Opens the table of a header. -/
def openTable (d : Document) (key : Key) : Option Document :=
  let opened := d.opening ++ d.opened
  if opened.contains key || d.isClosed key then none
  else
    (update true some key d.entries).map fun entries =>
      { d with entries, header := key, opened := key :: opened, opening := [] }

/-- Opens the next table of a list. -/
def openListed (d : Document) (key : Key) : Option Document :=
  if d.isClosed key then none
  else
    let opened := (d.opening ++ d.opened).filter fun k => !key.isPrefixOf k
    let closed := d.closed.filter fun k => !key.isPrefixOf k
    let (parent, name) := splitKey key
    (update true (addTable name) parent d.entries).map fun entries =>
      { entries, header := key, opened := key :: opened, opening := [], closed }

/-- The proper beginnings of a key, shortest first. -/
def beginnings (key : Key) : List Key :=
  ((List.range key.length).drop 1).map key.take

/-- Adds a value below the present header. -/
def add (d : Document) (key : Key) (value : Toml) : Option Document :=
  let tables := (beginnings key).map (d.header ++ ·)
  let (parent, name) := splitKey (d.header ++ key)
  if tables.any d.opened.contains || d.isClosed parent then none
  else
    (update true (addNew name value) parent d.entries).map fun entries =>
      { d with
        entries
        opening := tables ++ d.opening
        closed := if value.isNested then (d.header ++ key) :: d.closed
          else d.closed }

end Document

/-- Adds a value to a table in braces; `closed` are the values before it that
nothing may be added to. -/
def addInline (es : Entries) (closed : List Key) (key : Key) (value : Toml) :
    Option Entries :=
  if closed.any (·.isPrefixOf key) then none
  else
    let (parent, name) := splitKey key
    update false (addNew name value) parent es

end Toml

end BridgeBindings
