import BridgeBindings.Proofs.Crowding
import BridgeBindings.Proofs.Samples

/-!
# Names that are handed on

A module that imports a name can be asked for it like the one that declares it:
the lookup goes from import to import until it comes to the declaration. The way
to a class may have as many imports as are followed at all.

The lookup asks for the longest module first. So a module that is called like
the class, below one that hands the class on, stands before what is imported
there: the first such module on the way is what the name is found to mean.
-/

namespace BridgeBindings

/-! ## Identifiers -/

namespace Text

variable {s : String}

theorem not_mem_of_isIdentifier (h : isIdentifier s = true) {c : Char}
    (hopens : opensIdentifier c = false)
    (hextends : extendsIdentifier c = false) : c ∉ s.toList := by
  intro hc
  rcases opens_or_extends h hc with h | h
  · rw [hopens] at h
    cases h
  · rw [hextends] at h
    cases h

theorem undotted_of_isIdentifier (h : isIdentifier s = true) : '.' ∉ s.toList :=
  not_mem_of_isIdentifier h (by decide) (by decide)

theorem ne_empty_of_isIdentifier (h : isIdentifier s = true) : s ≠ "" := by
  rintro rfl
  exact absurd h (by decide)

end Text

/-! ## Parts of qualified names -/

theorem dotJoin_split (s : String) : dotJoin (Text.split '.' s) = s := by
  have hchars : (Text.split '.' s).map String.toList =
      s.toList.splitOn '.' := by
    rw [Text.split, Text.splitOnChar_eq_splitOn, List.map_map]
    exact (List.map_congr_left fun _ _ => String.toList_ofList).trans
      (List.map_id _)
  rw [← String.toList_inj, dotJoin, String.toList_intercalate, hchars,
    show ".".toList = ['.'] from rfl, List.intercalate_splitOn]

theorem split_append (module rest : String) :
    Text.split '.' (module ++ "." ++ rest) = Text.split '.' module ++
    Text.split '.' rest := by
  unfold Text.split
  rw [String.append_assoc, String.toList_append, String.toList_append,
    show ".".toList = ['.'] from rfl, List.singleton_append,
    Text.splitOnChar_append, List.map_append]

theorem split_of_undotted {name : String} (h : '.' ∉ name.toList) :
    Text.split '.' name = [name] := by
  unfold Text.split
  rw [Text.splitOnChar_eq_splitOn, List.splitOn_eq_singleton h,
    List.map_singleton, String.ofList_toList]

theorem Binding.qualifiedName_name {module name : String}
    (hmodule : module ≠ "") (hname : name ≠ "") :
    Binding.qualifiedName ⟨module, some name⟩ = module ++ "." ++ name := by
  unfold qualifiedName
  rw [if_neg (by simpa using hmodule)]
  exact if_neg (by simpa using hname)

/-! ## One step of a lookup -/

theorem Scope.declared?_of_undefined {s : Scope} {name : String}
    (h : s.defines name = false) : s.declared? name = none := by
  unfold defines Table.contains at h
  unfold declared?
  cases hclass : s.classes.get? name with
  | some c => simp [hclass] at h
  | none =>
      cases hfunction : s.functions.get? name with
      | some f => simp [hfunction] at h
      | none => cases halias : s.aliases.get? name <;> simp_all

namespace Symbols

variable {t : Symbols} {follow : Option (String → Option Symbol)} {s : Scope}
    {module name : String}

theorem longestModule_whole {parts : List String} (hne : parts ≠ [])
    (h : t.scope? (dotJoin parts) = some s) :
    t.longestModule parts parts.length = some (s, []) := by
  obtain ⟨n, hn⟩ : ∃ n, parts.length = n + 1 :=
    ⟨parts.length - 1, by have := List.length_pos_iff.mpr hne; omega⟩
  rw [hn, longestModule, ← hn, List.take_length, List.drop_length, h]

theorem longestModule_member {parts : List String} (hne : parts ≠ [])
    (h : t.scope? (dotJoin parts) = some s)
    (hnone : t.scope? (dotJoin (parts ++ [name])) = none) :
    t.longestModule (parts ++ [name]) (parts ++ [name]).length =
    some (s, [name]) := by
  obtain ⟨n, hn⟩ : ∃ n, parts.length = n + 1 :=
    ⟨parts.length - 1, by have := List.length_pos_iff.mpr hne; omega⟩
  have hlength : (parts ++ [name]).length = parts.length + 1 := by simp
  rw [hlength, longestModule, ← hlength, List.take_length, hnone]
  dsimp only
  rw [hn, longestModule, ← hn, List.take_left, List.drop_left, h]

/-- The name of a module stands for the module, whatever else is called so. -/
theorem lookupStep_module (follow : Option (String → Option Symbol))
    (h : t.scope? module = some s) :
    t.lookupStep follow module = some (.module s) := by
  unfold lookupStep
  dsimp only
  rw [longestModule_whole (Text.split_ne_nil '.' module)
    (by rwa [dotJoin_split])]

/-- A name within a module that is no module itself is that of a member. -/
theorem lookupStep_member (follow : Option (String → Option Symbol))
    (hname : '.' ∉ name.toList) (h : t.scope? module = some s)
    (hnone : t.scope? (module ++ "." ++ name) = none) :
    t.lookupStep follow (module ++ "." ++ name) = t.member follow s name := by
  have hparts : Text.split '.' (module ++ "." ++ name) =
      Text.split '.' module ++ [name] := by
    rw [split_append, split_of_undotted hname]
  have hjoined : dotJoin (Text.split '.' module ++ [name]) = module ++
      "." ++ name := by
    rw [← hparts, dotJoin_split]
  unfold lookupStep
  dsimp only
  rw [hparts, longestModule_member (Text.split_ne_nil '.' module)
    (by rwa [dotJoin_split]) (by rwa [hjoined])]

/-- However many imports are followed, a lookup takes its first step. -/
theorem lookupWithin_step (t : Symbols) (reexports : Nat) :
    ∃ follow, t.lookupWithin reexports = t.lookupStep follow := by
  cases reexports with
  | zero => exact ⟨none, rfl⟩
  | succ n => exact ⟨some (t.lookupWithin n), rfl⟩

theorem lookupWithin_module (reexports : Nat) (h : t.scope? module = some s) :
    t.lookupWithin reexports module = some (.module s) := by
  obtain ⟨follow, hfollow⟩ := t.lookupWithin_step reexports
  rw [hfollow, lookupStep_module follow h]

/-- A class is found under its qualified name, if this is not the
name of a module. -/
theorem lookupWithin_class (reexports : Nat) {c : ProgramClass}
    (hname : '.' ∉ c.name.toList) (h : t.Declares c)
    (hnone : t.scope? c.qualifiedName = none) :
    t.lookupWithin reexports c.qualifiedName = some (.cls c) := by
  obtain ⟨follow, hfollow⟩ := t.lookupWithin_step reexports
  have hmember : t.member follow c.scope c.name = some (.cls c) := by
    unfold member Scope.declared?
    rw [h.decl]
  rw [hfollow, ← hmember]
  exact lookupStep_member follow hname h.inTree hnone

/-- What a module imports is found where the import leads, with one import
less to follow. -/
theorem lookupWithin_import {reexports : Nat} {b : Binding}
    (hname : '.' ∉ name.toList) (h : t.Has s)
    (hundefined : s.defines name = false)
    (himport : s.imports.get? name = some b)
    (hnone : t.scope? (s.module ++ "." ++ name) = none) :
    t.lookupWithin (reexports + 1) (s.module ++ "." ++ name) =
      t.lookupWithin reexports b.qualifiedName := by
  rw [lookupWithin, lookupStep_member _ hname h hnone]
  unfold member
  rw [Scope.declared?_of_undefined hundefined, himport]

theorem Has.named (h : t.Has s) (hnamed : t.scope? "" = none) :
    s.module ≠ "" := by
  intro hempty
  unfold Has at h
  rw [hempty, hnamed] at h
  cases h

/-! ## Chains of imports -/

/-- Modules each of which imports a name from the next one, without defining it,
up to the one that declares a class of that name. -/
inductive Reexports (t : Symbols) (name : String) (c : ProgramClass) :
    List Scope → Prop
  | declared (hin : t.Has c.scope)
      (hdecl : c.scope.classes.get? name = some c.decl) :
      Reexports t name c [c.scope]
  | imported {s next : Scope} {later : List Scope} (hin : t.Has s)
      (hundefined : s.defines name = false)
      (himport : s.imports.get? name = some ⟨next.module, some name⟩)
      (hnext : Reexports t name c (next :: later)) : Reexports t name c
      (s :: next :: later)

namespace Reexports

variable {c : ProgramClass} {later : List Scope}

theorem head_in (h : t.Reexports name c (s :: later)) : t.Has s := by
  cases h with
  | declared hin => exact hin
  | imported hin => exact hin

theorem declares {chain : List Scope} (hk : t.Keyed)
    (h : t.Reexports name c chain) : c.name = name ∧ t.Declares c := by
  induction h with
  | declared hin hdecl =>
      exact ⟨hk.cls _ _ _ _ hin hdecl, declares_of_get? hk hin hdecl⟩
  | imported _ _ _ _ ih => exact ih

variable (hk : t.Keyed) (hnamed : t.scope? "" = none)
    (hname : Text.isIdentifier name = true)

include hnamed hname in
/-- One import further on, the name is asked for in the next module. -/
theorem step {next : Scope} {reexports : Nat}
    (h : t.Reexports name c (s :: next :: later))
    (hnone : t.scope? (s.module ++ "." ++ name) = none) :
    t.lookupWithin (reexports + 1) (s.module ++ "." ++ name) =
      t.lookupWithin reexports (next.module ++ "." ++ name) := by
  cases h with
  | imported hin hundefined himport hnext =>
      rw [lookupWithin_import (Text.undotted_of_isIdentifier hname) hin
        hundefined himport hnone,
        Binding.qualifiedName_name (hnext.head_in.named hnamed)
          (Text.ne_empty_of_isIdentifier hname)]

include hk hnamed hname

/-- Without a module of the name on its way the chain leads to the class. -/
theorem lookup_class {reexports : Nat} (h : t.Reexports name c (s :: later))
    (hlength : later.length ≤ reexports)
    (hfree : ∀ m ∈ s :: later, t.scope? (m.module ++ "." ++ name) = none) :
    t.lookupWithin reexports (s.module ++ "." ++ name) = some (.cls c) := by
  obtain ⟨hcls, hdeclares⟩ := h.declares hk
  induction later generalizing s reexports with
  | nil =>
      have hnone := hfree s List.mem_cons_self
      cases h with
      | declared =>
          have hqualified : c.qualifiedName = c.scope.module ++
              "." ++ name := by
            rw [ProgramClass.qualifiedName, hcls]
            rfl
          rw [← hqualified] at hnone ⊢
          exact lookupWithin_class reexports
            (hcls ▸ Text.undotted_of_isIdentifier hname) hdeclares hnone
  | cons next later ih =>
      obtain ⟨n, rfl⟩ : ∃ n, reexports = n + 1 :=
        ⟨reexports - 1, by rw [List.length_cons] at hlength; omega⟩
      rw [h.step hnamed hname (hfree s List.mem_cons_self)]
      cases h with
      | imported _ _ _ hnext =>
          exact ih hnext (Nat.le_of_succ_le_succ hlength) fun m hm =>
            hfree m (List.mem_cons_of_mem s hm)

omit hk in
/-- The first module of the name on the way of the chain is what the
lookup ends at. -/
theorem lookup_submodule {before after : List Scope} {m sub : Scope}
    {reexports : Nat} (h : t.Reexports name c (s :: later))
    (hlength : later.length ≤ reexports)
    (hsplit : s :: later = before ++ m :: after)
    (hfree : ∀ m' ∈ before, t.scope? (m'.module ++ "." ++ name) = none)
    (hsub : t.scope? (m.module ++ "." ++ name) = some sub) :
    t.lookupWithin reexports (s.module ++ "." ++ name) =
    some (.module sub) := by
  induction before generalizing s later reexports with
  | nil =>
      cases hsplit
      exact lookupWithin_module reexports hsub
  | cons first before ih =>
      obtain ⟨rfl, hlater⟩ := List.cons.inj hsplit
      cases later with
      | nil => exact absurd hlater (by simp)
      | cons next later =>
          obtain ⟨n, rfl⟩ : ∃ n, reexports = n + 1 :=
            ⟨reexports - 1, by rw [List.length_cons] at hlength; omega⟩
          rw [h.step hnamed hname (hfree s List.mem_cons_self)]
          cases h with
          | imported _ _ _ hnext =>
              exact ih hnext (Nat.le_of_succ_le_succ hlength)
                hlater fun m' hm' => hfree m' (List.mem_cons_of_mem s hm')

end Reexports

end Symbols

/-! ## The modules of a loaded program have names -/

theorem moduleName_ne_empty {root path rootPackage : String}
    (h : rootPackage ≠ "") : moduleName root path rootPackage ≠ "" := by
  unfold moduleName
  extract_lets way name
  split
  · exact h
  · next hname => simpa using hname

theorem Program.load_named {files : FileTree} {config : Config}
    {p : Program} {log : Log} (h : load files config = (.ok p, log))
    (hroot : config.rootPackage ≠ "") :
    (Symbols.ofProgram p).scope? "" = none := by
  cases hscope : (Symbols.ofProgram p).scope? "" with
  | none => rfl
  | some scope =>
      obtain ⟨s, hs, hmodule, -⟩ := Symbols.source_of_scope hscope
      obtain ⟨path, -, hpath⟩ := read_of_mem_files h hs
      have hempty :
          moduleName (Path.absolute config.root) path
            config.rootPackage = "" := by
        rw [← (read_facts hpath).2.2.1, hmodule]
      exact absurd hempty (moduleName_ne_empty hroot)

/-! ## Classes that are handed on -/

/-- A class is found under the name of each module that hands it on, over as
many imports as are followed at all, exactly if no module of the chain has a
module of that name below it; else the first such module is found. -/
theorem reexported_class_iff (p : Program)
    (hnamed : (Symbols.ofProgram p).scope? "" = none)
    {name : String} (hname : Text.isIdentifier name = true)
    {c : ProgramClass} {s : Scope} {later : List Scope}
    (hchain : (Symbols.ofProgram p).Reexports name c (s :: later))
    (hlength : later.length ≤ Symbols.maxReexports) :
    c.name = name ∧
      ((Symbols.ofProgram p).lookupQualified (s.module ++ "." ++ name) =
        some (.cls c) ↔
        ∀ m ∈ s :: later,
          (Symbols.ofProgram p).scope? (m.module ++ "." ++ name) = none) ∧
      ∀ before m after sub, s :: later = before ++ m :: after →
        (∀ m' ∈ before,
          (Symbols.ofProgram p).scope? (m'.module ++ "." ++ name) = none) →
          (Symbols.ofProgram p).scope? (m.module ++ "." ++ name) = some sub →
            (Symbols.ofProgram p).lookupQualified (s.module ++ "." ++ name) =
            some (.module sub) := by
  have hk := Symbols.keyed_ofProgram p
  have hshadowed : ∀ before m after sub, s :: later = before ++ m :: after →
      (∀ m' ∈ before,
        (Symbols.ofProgram p).scope? (m'.module ++ "." ++ name) = none) →
        (Symbols.ofProgram p).scope? (m.module ++ "." ++ name) = some sub →
          (Symbols.ofProgram p).lookupQualified (s.module ++ "." ++ name) =
          some (.module sub) :=
    fun _ _ _ _ hsplit hfree hsub =>
      hchain.lookup_submodule hnamed hname hlength hsplit hfree hsub
  refine ⟨(hchain.declares hk).1,
    ⟨fun hcls => ?_, hchain.lookup_class hk hnamed hname hlength⟩, hshadowed⟩
  by_contra hmodule
  simp only [not_forall] at hmodule
  obtain ⟨m, hm, hsome⟩ := hmodule
  -- the first of the chain that has such a module below it
  have hsubmodule : ((s :: later).find? fun m =>
      ((Symbols.ofProgram p).scope? (m.module ++ "." ++ name)).isSome).isSome =
        true :=
    List.find?_isSome.mpr ⟨m, hm, Option.isSome_iff_ne_none.mpr hsome⟩
  obtain ⟨first, hfirst⟩ := Option.isSome_iff_exists.mp hsubmodule
  obtain ⟨hsub, before, after, hsplit, hfree⟩ :=
    List.find?_eq_some_iff_append.mp hfirst
  obtain ⟨sub, hsub⟩ := Option.isSome_iff_exists.mp hsub
  rw [hshadowed before first after sub hsplit
    (fun m' hm' => by simpa using hfree m' hm') hsub] at hcls
  cases hcls

namespace Sample

open Syntax

/-- A module of the package `shop`. -/
def shopModule (module : String) (isPackageInit : Bool) (body : List Stmt) :
    Source :=
  { source module "shop" body with isPackageInit := isPackageInit }

def noteCls : ClassDef := cls "Note" [] [field "text" (name "str")]

/-- Has the class from another module of its package. -/
def handsOn (target : String) : Stmt :=
  .importFrom (some target) 1 [⟨"Note", none⟩]

def shopInit (target : String) : Source :=
  shopModule "shop" true [handsOn target]

def notesModule : Source := shopModule "shop.notes" false [handsOn "models"]

def noteModule (module : String) : Source :=
  shopModule module false [.cls noteCls]

def noteIn (module : String) : ProgramClass :=
  ⟨.ofSource (noteModule module), noteCls⟩

/-- A package hands a class on from one of its modules, which has it
from another one. -/
def handed : Program :=
  .ofSources config [shopInit "notes", notesModule, noteModule "shop.models"]

theorem handed_symbols :
    Symbols.ofProgram handed = ⟨.ofList [("shop", .ofSource (shopInit "notes")),
    ("shop.notes", .ofSource notesModule),
    ("shop.models", .ofSource (noteModule "shop.models"))]⟩ := by
  have hfiles : handed.files =
      [shopInit "notes", notesModule, noteModule "shop.models"] := by
    simp [handed, Program.files, Program.sortedPackages, Program.ofSources,
      Program.addFile, shopInit, notesModule, noteModule, shopModule, source,
      Table.insert, Table.put, Table.get?, Table.find, Table.empty]
  unfold Symbols.ofProgram
  rw [hfiles]
  rfl

theorem handed_chain :
    (Symbols.ofProgram handed).Reexports "Note" (noteIn "shop.models")
    [.ofSource (shopInit "notes"), .ofSource notesModule,
      .ofSource (noteModule "shop.models")] := by
  rw [handed_symbols]
  exact .imported rfl (by decide +kernel) (by decide +kernel)
    (.imported rfl (by decide +kernel) (by decide +kernel) (.declared rfl rfl))

/-- The class is found as a member of the package. -/
theorem handed_found : (Symbols.ofProgram handed).scope? "" = none ∧
    Text.isIdentifier "Note" = true ∧
    (Symbols.ofProgram handed).Reexports "Note"
      (noteIn "shop.models")
      [.ofSource (shopInit "notes"), .ofSource notesModule,
        .ofSource (noteModule "shop.models")] ∧
    (Symbols.ofProgram handed).lookupQualified "shop.Note" =
    some (.cls (noteIn "shop.models")) := by
  have hnamed : (Symbols.ofProgram handed).scope? "" = none := by
    rw [handed_symbols]
    rfl
  have hfree : ∀ m ∈ [Scope.ofSource (shopInit "notes"), .ofSource notesModule,
      .ofSource (noteModule "shop.models")],
      (Symbols.ofProgram handed).scope? (m.module ++ "." ++ "Note") = none := by
    rw [handed_symbols]
    simp only [List.forall_mem_cons]
    exact ⟨rfl, rfl, rfl, fun m hm => absurd hm List.not_mem_nil⟩
  exact ⟨hnamed, by decide, handed_chain,
    (reexported_class_iff handed hnamed (by decide) handed_chain
      (by decide)).2.1.mpr hfree⟩

/-- A package hands a class on from its module of the same name. -/
def hidden : Program :=
  .ofSources config [shopInit "Note", noteModule "shop.Note"]

theorem hidden_symbols :
    Symbols.ofProgram hidden = ⟨.ofList [("shop", .ofSource (shopInit "Note")),
    ("shop.Note", .ofSource (noteModule "shop.Note"))]⟩ :=
  symbols_pair (shopInit "Note") (noteModule "shop.Note") rfl config

/-- The chain has one import, and what is found as a member of the package is
not the class but the module. -/
theorem hidden_module :
      (Symbols.ofProgram hidden).Reexports "Note" (noteIn "shop.Note")
      [.ofSource (shopInit "Note"), .ofSource (noteModule "shop.Note")] ∧
    (Symbols.ofProgram hidden).lookupQualified "shop.Note" =
      some (.module (.ofSource (noteModule "shop.Note"))) ∧
    (Symbols.ofProgram hidden).lookupQualified "shop.Note" ≠
    some (.cls (noteIn "shop.Note")) := by
  have hmodule : (Symbols.ofProgram hidden).lookupQualified "shop.Note" =
      some (.module (.ofSource (noteModule "shop.Note"))) := by
    refine Symbols.lookupWithin_module _ ?_
    rw [hidden_symbols]
    rfl
  refine ⟨?_, hmodule, fun hcls => ?_⟩
  · rw [hidden_symbols]
    exact .imported rfl (by decide +kernel) (by decide +kernel)
      (.declared rfl rfl)
  · rw [hmodule] at hcls
    cases hcls

end Sample

end BridgeBindings
