import BridgeBindings.Proofs.BridgeNames
import BridgeBindings.Proofs.RelativeImports

/-!
# One class under many spellings

A module can import a class in many ways: its module or the class, under its own
name or another one, as a member of a package, by an absolute name or relative
to the directory of the file. Each way binds another name to something else, and
the class is then written in another way. What is looked up is always the
module's name and the class behind it, so all ways come to the same class.

A relative import comes to it unless it goes between the root directory's own
file and the other modules. The name of that file's module comes from the
configuration and does not say where the file stands: what is looked up then
is below the root package although the class is not, or is not below it
although the class is.
-/

namespace BridgeBindings

open Syntax

/-! ## Names in front -/

theorem splitHead_cut {head : String} (h : '.' ∉ head.toList) (rest : String) :
    splitHead (head ++ "." ++ rest) = (head, rest) := by
  have hall : ∀ c ∈ head.toList, decide (c ≠ '.') = true := by
    intro c hc
    rw [decide_eq_true_eq]
    rintro rfl
    exact h hc
  have hchars : (head ++ "." ++ rest).toList = head.toList ++ '.' ::
      rest.toList := by simp
  unfold splitHead
  dsimp only
  rw [hchars, List.takeWhile_append_of_pos hall,
    List.takeWhile_cons_of_neg (by decide), List.append_nil,
    List.drop_append, List.drop_of_length_le (Nat.le_succ _)]
  simp

theorem splitHead_undotted {name : String} (h : '.' ∉ name.toList) :
    splitHead name = (name, "") := by
  have hhead : (splitHead name).1 = name := splitHead_eq_iff.mpr h
  have hlength : (name.toList.takeWhile (· ≠ '.')).length =
      name.toList.length := by
    rw [← congrArg (fun s => s.toList.length) hhead]
    simp [splitHead]
  refine Prod.ext hhead ?_
  show String.ofList
      (name.toList.drop ((name.toList.takeWhile (· ≠ '.')).length + 1)) = ""
  rw [hlength, List.drop_of_length_le (Nat.le_succ _)]

/-- A name within a module starts with the first part of the module's name,
which has no dot. -/
theorem exists_head (module : String) {cls : String} (hcls : cls ≠ "") :
    '.' ∉ (splitHead module).1.toList ∧
      ∃ rest, rest ≠ "" ∧ module ++ "." ++ cls = (splitHead module).1 ++
      "." ++ rest := by
  by_cases h : '.' ∈ module.toList
  · obtain ⟨head, rest, hchars, hhead⟩ := List.eq_append_cons_of_mem h
    have hmodule : module = String.ofList head ++ "." ++
        String.ofList rest := by
      rw [← String.toList_inj, hchars]
      simp
    rw [hmodule, splitHead_cut (by simpa using hhead)]
    refine ⟨by simpa using hhead, String.ofList rest ++ "." ++ cls,
      fun hempty => ?_, ?_⟩
    · exact hcls (String.append_eq_empty_iff.mp hempty).2
    · simp only [String.append_assoc]
  · rw [splitHead_undotted h]
    exact ⟨h, cls, hcls, rfl⟩

theorem Binding.qualifiedName_module (module : String) :
    Binding.qualifiedName ⟨module, none⟩ = module := by
  unfold qualifiedName
  split
  · next h => exact (String.isEmpty_iff.mp h).symm
  · rfl

/-- A name in a joined module is the module joined with the name, and in no
module it is itself. -/
theorem Binding.qualifiedName_joined {names : List String}
    (h : dotJoin names = "" → names = []) {name : String} (hname : name ≠ "") :
    Binding.qualifiedName ⟨dotJoin names, some name⟩ =
    dotJoin (names ++ [name]) := by
  by_cases hnone : names = []
  · rw [hnone]
    exact (dotJoin_singleton name).symm
  · rw [qualifiedName_name (fun he => hnone (h he)) hname,
      dotJoin_append hnone (List.cons_ne_nil _ _), dotJoin_singleton]

/-! ## What a scope asks for -/

namespace Scope

/-- What a scope imports under a name is what this statement gives the name. -/
def BoundBy (s : Scope) (stmt : Stmt) (name : String) : Prop :=
  s.imports.get? name =
    (Table.ofList (Imports.ofStmt s.module s.source.isPackageInit stmt)).get?
      name

variable {s : Scope} {stmt : Stmt} {name : String} {b : Binding}

theorem BoundBy.binding (h : s.BoundBy stmt name)
    (hsingle : Imports.ofStmt s.module s.source.isPackageInit stmt =
      [(name, b)]) :
    s.imports.get? name = some b := by
  rw [h, hsingle]
  exact Table.get?_insert_self _ _ _

theorem ofStmt_from {own : String} (target : Option String) (level : Nat)
    {asName : Option String} (hname : Text.isIdentifier name = true)
    (hown : asName.getD name = own) :
    Imports.ofStmt s.module s.source.isPackageInit
      (.importFrom target level [⟨name, asName⟩]) =
      [(own, ⟨resolveRelative s.module s.source.isPackageInit level target,
        some name⟩)] := by
  have hstar : name ≠ "*" := by
    rintro rfl
    exact absurd hname (by decide)
  simp [Imports.ofStmt, hstar, hown]

end Scope

section Bound

variable {s : Scope} {stmt : Stmt} {own : String} {b : Binding}
  (hsingle : Imports.ofStmt s.module s.source.isPackageInit stmt = [(own, b)])
  (hown : '.' ∉ own.toList) (t : Symbols)

include hsingle hown

/-- A name that a statement binds is looked up as what it is bound to. -/
theorem Scope.BoundBy.lookup_own (hbound : s.BoundBy stmt (splitHead own).1)
    (hundefined : s.defines (splitHead own).1 = false) :
    t.lookup s own = t.lookupQualified b.qualifiedName := by
  rw [splitHead_undotted hown] at hbound hundefined
  unfold Symbols.lookup
  rw [splitHead_undotted hown]
  dsimp only
  rw [Scope.declared?_of_undefined hundefined, hbound.binding hsingle]
  rfl

/-- What is written behind such a name is looked up behind what
it is bound to. -/
theorem Scope.BoundBy.lookup_within {rest : String} (hrest : rest ≠ "")
    (hbound : s.BoundBy stmt (splitHead (own ++ "." ++ rest)).1)
    (hundefined : s.defines (splitHead (own ++ "." ++ rest)).1 = false) :
    t.lookup s (own ++ "." ++ rest) =
    t.lookupQualified (b.qualifiedName ++ "." ++ rest) := by
  rw [splitHead_cut hown] at hbound hundefined
  unfold Symbols.lookup
  rw [splitHead_cut hown]
  dsimp only
  rw [Scope.declared?_of_undefined hundefined, hbound.binding hsingle]
  dsimp only
  rw [if_neg (by simpa using hrest)]

end Bound

/-! ## The spellings of a class -/

/-- The file of a scope, in directories below the root directory: what reading
it makes of its path. -/
structure Source.Stands (s : Source) (root rootPackage : String)
    (dirs : List String) (file : String) : Prop where
  within : ∀ d ∈ dirs, Importable d
  called : Text.isIdentifier file = true
  module : s.module = moduleName root (Path.file root dirs file) rootPackage
  isPackageInit : s.isPackageInit =
      decide (Path.baseName (Path.file root dirs file) = "__init__.py")

theorem Source.stands_of_read {files : FileTree}
    {root rootPackage file : String} {dirs : List String}
    {s : Source} (hdirs : ∀ d ∈ dirs, Importable d)
    (hfile : Text.isIdentifier file = true)
    (h : Source.read files root (Path.file root dirs file)
      rootPackage = .ok s) :
    s.Stands root rootPackage dirs file := by
  obtain ⟨_, _, -, -, rfl⟩ := Source.read_ok h
  exact ⟨hdirs, hfile, by dsimp only, by dsimp only⟩

/-- An import that gives a module a way to write a class of another module, and
how the class is written then. What a relative import says is found from the
directories that the file is in; it comes with the place of the other module. -/
inductive Spelling (rootPackage : String) (dirs : List String)
    (module cls : String) : Option (List String) → Stmt → String → Prop
  | whole : Spelling rootPackage dirs module cls none
      (.importModules [⟨module, none⟩]) (module ++ "." ++ cls)
  | renamed {own : String} (hown : Text.isIdentifier own = true) :
      Spelling rootPackage dirs module cls none
        (.importModules [⟨module, some own⟩]) (own ++ "." ++ cls)
  | member {own : String} {asName : Option String}
      (hown : Text.isIdentifier own = true) (hname : asName.getD cls = own) :
      Spelling rootPackage dirs module cls none
        (.importFrom (some module) 0 [⟨cls, asName⟩]) own
  | submodule {package name own : String} {asName : Option String}
      (hpackage : package ≠ "") (hmodule : module = package ++ "." ++ name)
      (hinner : Text.isIdentifier name = true)
      (hown : Text.isIdentifier own = true) (hname : asName.getD name = own) :
      Spelling rootPackage dirs module cls none
        (.importFrom (some package) 0 [⟨name, asName⟩]) (own ++ "." ++ cls)
  | relativeMember {names : List String} {level : Nat} {own : String}
      {asName : Option String} (hlevel : 1 ≤ level)
      (hdepth : level ≤ dirs.length + 1) (hnames : ∀ n ∈ names, Importable n)
      (hmodule : module = moduleAt rootPackage (above dirs level ++ names))
      (hown : Text.isIdentifier own = true) (hname : asName.getD cls = own) :
      Spelling rootPackage dirs module cls (some (above dirs level ++ names))
        (.importFrom (written? names) level [⟨cls, asName⟩]) own
  | relativeSubmodule {names : List String} {level : Nat} {name own : String}
      {asName : Option String} (hlevel : 1 ≤ level)
      (hdepth : level ≤ dirs.length + 1) (hnames : ∀ n ∈ names, Importable n)
      (hmodule : module =
        moduleAt rootPackage (above dirs level ++ names ++ [name]))
      (hinner : Importable name) (hown : Text.isIdentifier own = true)
      (hname : asName.getD name = own) : Spelling rootPackage dirs module cls
      (some (above dirs level ++ names ++ [name]))
        (.importFrom (written? names) level [⟨name, asName⟩])
        (own ++ "." ++ cls)

/-- A relative import does not go between the root directory's own file and the
other modules. -/
def SameSide (dirs : List String) (file : String)
    (relative : Option (List String)) : Prop :=
  ∀ place, relative = some place → (place = [] ↔ dirs = [] ∧ file = "__init__")

theorem sameSide_absolute (dirs : List String) (file : String) :
    SameSide dirs file none :=
  fun _ h => by cases h

theorem sameSide_relative {dirs place : List String} {file : String} :
    SameSide dirs file (some place) ↔
    (place = [] ↔ dirs = [] ∧ file = "__init__") :=
  ⟨fun h => h place rfl, fun h _ hplace => Option.some.inj hplace ▸ h⟩

/-- What a module has at a place below the root directory is named by
one place more. -/
theorem moduleAt_member {place : List String} (h : place ≠ [])
    (rootPackage name : String) : moduleAt rootPackage place ++ "." ++ name =
    dotJoin (place ++ [name]) := by
  rw [moduleAt, if_neg h, dotJoin_append h (List.cons_ne_nil _ _),
    dotJoin_singleton]

/-- What a relative import of the names on this way asks for: the root
directory's own file looks for them below the root package. -/
def askedBelow (rootPackage : String) (dirs : List String) (file : String)
    (way : List String) : String :=
  if dirs = [] ∧ file = "__init__" then rootPackage ++ "." ++ dotJoin way
    else dotJoin way

section Spelled

variable {root rootPackage : String} {dirs names : List String}
  {file : String} {level : Nat} {scope : Scope}

theorem askedBelow_snoc {way : List String} (h : way ≠ []) (cls : String) :
    askedBelow rootPackage dirs file way ++ "." ++ cls =
      askedBelow rootPackage dirs file (way ++ [cls]) := by
  unfold askedBelow
  rw [dotJoin_append h (List.cons_ne_nil _ _), dotJoin_singleton]
  split
  · simp only [String.append_assoc]
  · rfl

/-- A class of a module is asked for under its own name, unless the import goes
between the root directory's own file and the other modules. -/
theorem askedBelow_member (place : List String) (cls : String) :
    (SameSide dirs file (some place) →
      askedBelow rootPackage dirs file (place ++ [cls]) =
      moduleAt rootPackage place ++ "." ++ cls) ∧
    (¬SameSide dirs file (some place) →
      askedBelow rootPackage dirs file (place ++ [cls]) =
      if dirs = [] ∧ file = "__init__" then
        rootPackage ++ "." ++ (moduleAt rootPackage place ++ "." ++ cls)
      else cls) := by
  rw [sameSide_relative, askedBelow]
  by_cases hinit : dirs = [] ∧ file = "__init__"
  · rw [if_pos hinit, if_pos hinit]
    constructor
    · intro h
      rw [h.mpr hinit]
      rfl
    · intro h
      rw [moduleAt_member fun hnone => h (iff_of_true hnone hinit)]
  · rw [if_neg hinit, if_neg hinit]
    constructor
    · intro h
      rw [moduleAt_member fun hnone => hinit (h.mp hnone)]
    · intro h
      have hnone : place = [] := by
        by_contra hsome
        exact h (iff_of_false hsome hinit)
      rw [hnone, List.nil_append, dotJoin_singleton]

/-- What a relative import of a name binds to. -/
theorem Source.Stands.imported
    (hstands : scope.source.Stands root rootPackage dirs file)
    (hscope : scope.module ≠ "") (hlevel : 1 ≤ level)
    (hdepth : level ≤ dirs.length + 1) (hnames : ∀ n ∈ names, Importable n)
    {name : String} (hname : name ≠ "") : Binding.qualifiedName
      ⟨resolveRelative scope.module scope.source.isPackageInit level
        (written? names), some name⟩ = askedBelow rootPackage dirs file
        (above dirs level ++ names ++ [name]) := by
  have hne : ∀ n ∈ names, n ≠ "" := by
    intro n hn
    exact Text.ne_empty_of_isIdentifier (hnames n hn).1
  have hmodule : scope.module = moduleAt rootPackage (modulePlace dirs file) :=
    hstands.module.trans
      (moduleName_file hstands.within hstands.called root rootPackage)
  have hkind : scope.source.isPackageInit = decide (file = "__init__") :=
    hstands.isPackageInit.trans (isInit_file hstands.within hstands.called root)
  rw [hmodule] at hscope
  rw [hmodule, hkind, askedBelow]
  -- only in the root directory's own file does the name of the module say
  -- nothing of where the file stands
  by_cases hinit : dirs = [] ∧ file = "__init__"
  · rw [if_pos hinit]
    obtain ⟨rfl, rfl⟩ := hinit
    obtain rfl : level = 1 := Nat.le_antisymm hdepth hlevel
    have hroot : rootPackage ≠ "" := hscope
    have hparts := Text.split_ne_nil '.' rootPackage
    have hjoined : dotJoin (Text.split '.' rootPackage ++ names) ≠ "" := by
      by_cases hnone : names = []
      · rwa [hnone, List.append_nil, dotJoin_split]
      · rw [dotJoin_append hparts hnone, dotJoin_split]
        exact fun h =>
          hroot (String.append_eq_empty_iff.mp
            (String.append_eq_empty_iff.mp h).1).1
    rw [show decide ("__init__" = "__init__") = true from rfl,
      resolveRelative_own hroot hne,
      Binding.qualifiedName_joined (fun h => absurd h hjoined) hname,
      List.append_assoc, dotJoin_append hparts (by simp), dotJoin_split]
    rfl
  · rw [if_neg hinit]
    have hall : ∀ n ∈ above dirs level ++ names, n ≠ "" := by
      intro n hn
      rcases List.mem_append.mp hn with hn | hn
      · exact Text.ne_empty_of_isIdentifier
          (hstands.within n (List.mem_of_mem_take hn)).1
      · exact hne n hn
    rw [resolveRelative_place hstands.within hstands.called hinit hlevel hne,
      Binding.qualifiedName_joined
        (fun h => by_contra fun hnone => dotJoin_ne_empty hnone hall h) hname]

/-- What a scope looks up for a class that it imports. -/
theorem Spelling.asked {module cls : String}
    {relative : Option (List String)} {stmt : Stmt}
    {written : String}
    (h : Spelling rootPackage dirs module cls relative stmt written)
    (hmodule : module ≠ "") (hcls : Text.isIdentifier cls = true)
    (hscope : scope.module ≠ "")
    (hstands : relative.isSome = true →
      scope.source.Stands root rootPackage dirs file)
    (hbound : scope.BoundBy stmt (splitHead written).1)
    (hundefined : scope.defines (splitHead written).1 = false) (t : Symbols) :
    (SameSide dirs file relative →
      t.lookup scope written = t.lookupQualified (module ++ "." ++ cls)) ∧
    (¬SameSide dirs file relative → t.lookup scope written = t.lookupQualified
      (if dirs = [] ∧ file = "__init__"
        then rootPackage ++ "." ++ (module ++ "." ++ cls) else cls)) := by
  have hne := Text.ne_empty_of_isIdentifier hcls
  have habsolute := sameSide_absolute dirs file
  -- by the way of writing it: the head is bound by the statement, and what
  -- follows the head is looked up below what it is bound to
  cases h with
  | whole =>
      refine ⟨fun _ => ?_, fun h => absurd habsolute h⟩
      obtain ⟨hhead, rest, hrest, hwritten⟩ := exists_head module hne
      rw [hwritten] at hbound hundefined ⊢
      rw [hbound.lookup_within rfl hhead t hrest hundefined,
        Binding.qualifiedName_module]
  | @renamed own hown =>
      refine ⟨fun _ => ?_, fun h => absurd habsolute h⟩
      rw [hbound.lookup_within rfl (Text.undotted_of_isIdentifier hown) t
        hne hundefined, Binding.qualifiedName_module]
  | @member own asName hown hname =>
      refine ⟨fun _ => ?_, fun h => absurd habsolute h⟩
      rw [hbound.lookup_own (Scope.ofStmt_from _ _ hcls hname)
        (Text.undotted_of_isIdentifier hown) t hundefined]
      exact congrArg t.lookupQualified (Binding.qualifiedName_name hmodule hne)
  | @submodule package name own asName hpackage hplace hinner hown hname =>
      refine ⟨fun _ => ?_, fun h => absurd habsolute h⟩
      have hqualified : Binding.qualifiedName ⟨package, some name⟩ = module :=
        (Binding.qualifiedName_name hpackage
          (Text.ne_empty_of_isIdentifier hinner)).trans hplace.symm
      rw [hbound.lookup_within (Scope.ofStmt_from _ _ hinner hname)
        (Text.undotted_of_isIdentifier hown) t hne hundefined]
      exact congrArg (fun m => t.lookupQualified (m ++ "." ++ cls)) hqualified
  | @relativeMember names level own asName hlevel hdepth hnames
      hplace hown hname =>
      rw [hbound.lookup_own (Scope.ofStmt_from _ _ hcls hname)
        (Text.undotted_of_isIdentifier hown) t hundefined,
        (hstands rfl).imported hscope hlevel hdepth hnames hne, hplace]
      exact ⟨fun h => congrArg _ ((askedBelow_member _ cls).1 h),
        fun h => congrArg _ ((askedBelow_member _ cls).2 h)⟩
  | @relativeSubmodule names level name own asName hlevel hdepth hnames hplace
      hinner hown hname =>
      rw [hbound.lookup_within (Scope.ofStmt_from _ _ hinner.1 hname)
        (Text.undotted_of_isIdentifier hown) t hne hundefined,
        (hstands rfl).imported hscope hlevel hdepth hnames
        (Text.ne_empty_of_isIdentifier hinner.1), hplace,
        askedBelow_snoc (by simp)]
      exact ⟨fun h => congrArg _ ((askedBelow_member _ cls).1 h),
        fun h => congrArg _ ((askedBelow_member _ cls).2 h)⟩

end Spelled

/-- Every spelling of a class comes to the class, if a relative import does
not go between the root directory's own file and the other modules. If it
does, what is looked up is the class below the root package, or the name of
the class alone. -/
theorem class_spellings_agree (p : Program)
    (hnamed : (Symbols.ofProgram p).scope? "" = none)
    {c : ProgramClass} (hc : (Symbols.ofProgram p).Declares c)
    (hname : Text.isIdentifier c.name = true)
    (hfree : (Symbols.ofProgram p).scope? c.qualifiedName = none)
    {scope : Scope} (hin : (Symbols.ofProgram p).Has scope)
    {root rootPackage : String} {dirs : List String}
    {file : String} {relative : Option (List String)} {stmt : Stmt}
    {written : String}
    (hspelling : Spelling rootPackage dirs c.module c.name
      relative stmt written)
    (hstands : relative.isSome = true →
      scope.source.Stands root rootPackage dirs file)
    (hbound : scope.BoundBy stmt (splitHead written).1)
    (hundefined : scope.defines (splitHead written).1 = false) :
    (SameSide dirs file relative → (Symbols.ofProgram p).lookup scope written =
      some (.cls c)) ∧
    (¬SameSide dirs file relative → (Symbols.ofProgram p).lookup scope written =
      (Symbols.ofProgram p).lookupQualified
        (if dirs = [] ∧ file = "__init__"
          then rootPackage ++ "." ++ c.qualifiedName else c.name)) := by
  obtain ⟨hsame, hother⟩ :=
    hspelling.asked (hc.inTree.named hnamed) hname (hin.named hnamed) hstands
    hbound hundefined (Symbols.ofProgram p)
  refine ⟨fun h => ?_, hother⟩
  rw [hsame h]
  exact Symbols.lookupWithin_class _
    (Text.undotted_of_isIdentifier hname) hc hfree

namespace Sample

/-- Imports a module of its own package under another name. -/
def importsModels : Stmt := .importFrom none 1 [⟨"models", some "m"⟩]

def ordersModule : Source := shopModule "shop.orders" false [importsModels]

def ordered : Program :=
  .ofSources config [noteModule "shop.models", ordersModule]

theorem ordered_symbols : Symbols.ofProgram ordered =
    ⟨.ofList [("shop.models", .ofSource (noteModule "shop.models")),
      ("shop.orders", .ofSource ordersModule)]⟩ :=
  symbols_pair (noteModule "shop.models") ordersModule rfl config

theorem importsModels_spelling : Spelling "main" ["shop"] "shop.models" "Note"
    (some ["shop", "models"]) importsModels ("m" ++ "." ++ "Note") :=
  @Spelling.relativeSubmodule "main" ["shop"] "shop.models" "Note"
    [] 1 "models" "m" (some "m") (by decide) (by decide) (by decide) (by decide)
    (by decide) (by decide) rfl

/-- The class is found as a member of the module that is imported relative
to its package. -/
theorem ordered_found : ordersModule.Stands "/srv" "main" ["shop"] "orders" ∧
    (Scope.ofSource ordersModule).BoundBy importsModels "m" ∧
    (Symbols.ofProgram ordered).lookup (.ofSource ordersModule)
      ("m" ++ "." ++ "Note") = some (.cls (noteIn "shop.models")) := by
  have hstands : ordersModule.Stands "/srv" "main" ["shop"] "orders" :=
    ⟨by decide, by decide, by decide +kernel, by decide +kernel⟩
  have hbound : (Scope.ofSource ordersModule).BoundBy importsModels "m" := by
    unfold Scope.BoundBy
    decide +kernel
  have hnamed : (Symbols.ofProgram ordered).scope? "" = none := by
    rw [ordered_symbols]
    rfl
  have hdeclares : (Symbols.ofProgram ordered).Declares
      (noteIn "shop.models") := by
    rw [ordered_symbols]
    exact ⟨rfl, rfl⟩
  have hfree : (Symbols.ofProgram ordered).scope?
      (noteIn "shop.models").qualifiedName = none := by
    rw [ordered_symbols]
    rfl
  have hin : (Symbols.ofProgram ordered).Has (.ofSource ordersModule) := by
    rw [ordered_symbols]
    rfl
  refine ⟨hstands, hbound,
    (class_spellings_agree ordered hnamed hdeclares (by decide) hfree hin
    importsModels_spelling (fun _ => hstands) hbound rfl).1 ?_⟩
  exact sameSide_relative.mpr (by decide)

/-- The root directory's own file imports a class from the file beside it. -/
def importsNote : Stmt := .importFrom (some "notes") 1 [⟨"Note", none⟩]

def rootInit : Source :=
  { source "main" "main" [importsNote] with isPackageInit := true }

def rootNotes : Source := source "notes" "main" [.cls noteCls]

def beside : Program := .ofSources config [rootInit, rootNotes]

theorem beside_symbols : Symbols.ofProgram beside =
    ⟨.ofList [("main", .ofSource rootInit), ("notes", .ofSource rootNotes)]⟩ :=
  symbols_pair rootInit rootNotes rfl config

/-- The import is one of the spellings of the class, and comes to nothing. -/
theorem beside_lost : rootInit.Stands "/srv" "main" [] "__init__" ∧
    (Symbols.ofProgram beside).Has (.ofSource rootInit) ∧
    (Symbols.ofProgram beside).Declares ⟨.ofSource rootNotes, noteCls⟩ ∧
    (Symbols.ofProgram beside).scope? "notes.Note" = none ∧
    Spelling "main" [] "notes" "Note" (some ["notes"]) importsNote "Note" ∧
    (Scope.ofSource rootInit).BoundBy importsNote "Note" ∧
    (Scope.ofSource rootInit).defines "Note" = false ∧
    ((Symbols.ofProgram beside).lookup (.ofSource rootInit) "Note").isNone =
    true := by
  rw [beside_symbols]
  have hstands : rootInit.Stands "/srv" "main" [] "__init__" :=
    ⟨by decide, by decide, by decide +kernel, by decide +kernel⟩
  refine ⟨hstands, rfl, ⟨rfl, rfl⟩, rfl, ?_, ?_, rfl, ?_⟩
  · exact @Spelling.relativeMember "main" [] "notes" "Note"
      ["notes"] 1 "Note" none (by decide) (by decide) (by decide) (by decide)
      (by decide) rfl
  · unfold Scope.BoundBy
    decide +kernel
  · decide +kernel

end Sample

end BridgeBindings
