import BridgeBindings.Proofs.Crowding
import BridgeBindings.Proofs.Naming

/-!
# How settings come together

A configuration is made from the section of the project file and from the
overrides, of which those that are none do not count. It is stated here without
the order in which this is done: what a project file says, when a setting fits,
and which setting of a name counts. The program loads a configuration exactly if
what counts fits, and its fields are what counts or the defaults.

A project file that cannot be read as a document is a fault that is reported,
and so is a section that is no table. Two steps lie outside of that: the bytes
may be no text, and the entry that the section is looked up in may be no table.
There the fault is not one that anybody expects.
-/

namespace BridgeBindings

/-! ## Files -/

theorem FileTree.isFile_iff {t : FileTree} {path : String} :
    t.isFile path = true ↔ ∃ bytes, t.read path = .ok bytes := by
  unfold isFile entry? read
  cases t.locate path with
  | error f => simp
  | ok names =>
      cases hentry : t.root.at? names with
      | none => simp [hentry]
      | some e => cases e <;> simp [hentry, Entry.isDirectory]

namespace Config

/-! ## What the project file says -/

section ProjectFile

variable (files : FileTree) (root : String)

/-- Where the settings of a project are written. -/
def projectFile : String := Path.join (Path.absolute root) "pyproject.toml"

/-- The project file is there, and it is this document. -/
def Parses (document : Toml.Entries) : Prop :=
  ∃ bytes text, files.read (projectFile root) = .ok bytes ∧
    Text.decodeUtf8 bytes = .ok text ∧ Toml.read text = some document

/-- The entries of the program's section: none if there is no file or no
section in it. -/
inductive Says : Toml.Entries → Prop where
  | noFile (h : files.isFile (projectFile root) = false) : Says []
  | noTools {document : Toml.Entries} (h : Parses files root document)
      (htool : document.lookup "tool" = none) : Says []
  | noSection {document tools : Toml.Entries} (h : Parses files root document)
      (htool : document.lookup "tool" = some (.table tools))
      (hsection : tools.lookup "bindgen" = none) : Says []
  | entries {document tools entries : Toml.Entries}
      (h : Parses files root document)
      (htool : document.lookup "tool" = some (.table tools))
      (hsection : tools.lookup "bindgen" = some (.table entries)) : Says entries

/-- What nobody expects of a project file: it is no text, or its entry of the
tools is no table. -/
inductive Unforeseen : Prop where
  | noText {bytes : List UInt8} {fault : Text.Utf8Fault}
      (h : files.read (projectFile root) = .ok bytes)
      (hbytes : Text.decodeUtf8 bytes = .error fault)
  | noTable {document : Toml.Entries} {value : Toml}
      (h : Parses files root document)
      (htool : document.lookup "tool" = some value)
      (hvalue : ∀ tools, value ≠ .table tools)

end ProjectFile

variable {files : FileTree} {root : String}

theorem fileSettings_parsed {document : Toml.Entries}
    (h : Parses files root document) : fileSettings files (Path.absolute root) =
      (sectionOf (projectFile root) document).map fun entries =>
        .ofList (entries.map fun (name, v) => (name, settingOf v)) := by
  obtain ⟨bytes, text, hread, htext, hdocument⟩ := h
  have hfile := FileTree.isFile_iff.mpr ⟨bytes, hread⟩
  unfold projectFile at hread hfile ⊢
  simp only [fileSettings, hfile, hread, htext, hdocument]
  rfl

theorem fileSettings_noText {bytes : List UInt8} {fault : Text.Utf8Fault}
    (h : files.read (projectFile root) = .ok bytes)
    (hbytes : Text.decodeUtf8 bytes = .error fault) :
    fileSettings files (Path.absolute root) =
    .error (.unreadable (projectFile root)) := by
  have hfile := FileTree.isFile_iff.mpr ⟨bytes, h⟩
  unfold projectFile at h hfile ⊢
  simp only [fileSettings, hfile, h, hbytes]
  rfl

theorem fileSettings_invalid {bytes : List UInt8} {text : String}
    (h : files.read (projectFile root) = .ok bytes)
    (htext : Text.decodeUtf8 bytes = .ok text)
    (hdocument : Toml.read text = none) :
    fileSettings files (Path.absolute root) =
    .error (.invalid (projectFile root)) := by
  have hfile := FileTree.isFile_iff.mpr ⟨bytes, h⟩
  unfold projectFile at h hfile ⊢
  simp only [fileSettings, hfile, h, htext, hdocument]
  rfl

theorem fileSettings_noFile (h : files.isFile (projectFile root) = false) :
    fileSettings files (Path.absolute root) = .ok .empty := by
  unfold projectFile at h
  simp only [fileSettings, h]
  rfl

/-- The settings of a section. -/
def sectionSettings (entries : Toml.Entries) : Table Setting :=
  .ofList (entries.map fun (name, v) => (name, settingOf v))

theorem fileSettings_said {entries : Toml.Entries}
    (h : Says files root entries) : fileSettings files (Path.absolute root) =
    .ok (sectionSettings entries) := by
  cases h with
  | noFile h => exact fileSettings_noFile h
  | noTools h htool =>
      rw [fileSettings_parsed h, sectionOf, htool]
      rfl
  | noSection h htool hsection =>
      rw [fileSettings_parsed h, sectionOf, htool]
      dsimp only
      rw [hsection]
      rfl
  | entries h htool hsection =>
      rw [fileSettings_parsed h, sectionOf, htool]
      dsimp only
      rw [hsection]
      rfl

theorem fileSettings_unforeseen (h : Unforeseen files root) :
    ∃ f, fileSettings files (Path.absolute root) = .error f ∧
    f.isReported = false := by
  cases h with
  | noText h hbytes => exact ⟨_, fileSettings_noText h hbytes, rfl⟩
  | @noTable document value h htool hvalue =>
      refine ⟨.noTools (projectFile root), ?_, rfl⟩
      rw [fileSettings_parsed h, sectionOf, htool]
      cases value with
      | table tools => exact absurd rfl (hvalue tools)
      | _ => rfl

/-- A project file that is a document says something, or is not as expected, or
its section is no table, which is reported. -/
theorem parsed_outcome {document : Toml.Entries}
    (h : Parses files root document) : (∃ entries, Says files root entries) ∨
    Unforeseen files root ∨
      fileSettings files (Path.absolute root) =
      .error (.noSection (projectFile root)) := by
  cases htool : document.lookup "tool" with
  | none => exact .inl ⟨[], .noTools h htool⟩
  | some value =>
      by_cases hvalue : ∃ tools, value = .table tools
      · obtain ⟨tools, rfl⟩ := hvalue
        cases hsection : tools.lookup "bindgen" with
        | none => exact .inl ⟨[], .noSection h htool hsection⟩
        | some own =>
            cases own with
            | table entries => exact .inl ⟨entries, .entries h htool hsection⟩
            | _ =>
                refine .inr (.inr ?_)
                rw [fileSettings_parsed h, sectionOf, htool]
                dsimp only
                rw [hsection]
                rfl
      · exact .inr (.inl (.noTable h htool fun tools he => hvalue ⟨tools, he⟩))

theorem fileSettings_outcome (files : FileTree) (root : String) :
    (∃ entries, Says files root entries) ∨ Unforeseen files root ∨
      ∃ f, fileSettings files (Path.absolute root) = .error f ∧
      f.isReported = true := by
  cases hfile : files.isFile (projectFile root) with
  | false => exact .inl ⟨[], .noFile hfile⟩
  | true =>
      obtain ⟨bytes, hread⟩ := FileTree.isFile_iff.mp hfile
      cases htext : Text.decodeUtf8 bytes with
      | error fault => exact .inr (.inl (.noText hread htext))
      | ok text =>
          cases hdocument : Toml.read text with
          | none =>
              exact .inr (.inr
                ⟨_, fileSettings_invalid hread htext hdocument, rfl⟩)
          | some document =>
              rcases parsed_outcome ⟨bytes, text, hread, htext, hdocument⟩
                with h | h | h
              · exact .inl h
              · exact .inr (.inl h)
              · exact .inr (.inr ⟨_, h, rfl⟩)

/-! ## Which settings fit -/

/-- A setting that is known and has the kind of its field: a text, which is a
dotted name where it names a module, or a list of texts, which is not empty
where something has to be bound. What is said about the root does not matter. -/
def Fits (name : String) : Setting → Prop
  | .text value =>
    name = "root" ∨ name ∈ textSettings ∧
      (name ∈ nameSettings → Text.isDottedIdentifier value = true)
  | .list items =>
    name = "root" ∨ name ∈ listSettings ∧ (∀ item ∈ items, isText item = true) ∧
      (name = "bind_methods" → items ≠ [])
  | .other => name = "root"

theorem textProblems_eq_nil_iff {name value : String} :
    textProblems name value = [] ↔
    (name ∈ nameSettings → Text.isDottedIdentifier value = true) := by
  unfold textProblems
  by_cases hname : name ∈ nameSettings <;> simp [hname]

theorem itemProblems_eq_nil_iff {name : String} {items : List Setting} :
    (items.zipIdx.filter fun (item, _) => !isText item).map
      (fun (_, i) => (⟨name, some i, .notText⟩ : Problem)) = [] ↔
        ∀ item ∈ items, isText item = true := by
  rw [List.map_eq_nil_iff, List.filter_eq_nil_iff]
  conv_rhs => rw [← List.zipIdx_map_fst 0 items]
  simp only [List.forall_mem_map, Bool.not_eq_true', Bool.not_eq_false]

theorem listProblems_eq_nil_iff {name : String} {items : List Setting} :
    listProblems name items = [] ↔
      (∀ item ∈ items, isText item = true) ∧
      (name = "bind_methods" → items ≠ []) := by
  unfold listProblems
  by_cases hbind : name = "bind_methods"
  · cases items with
    | nil => simp [hbind]
    | cons item items =>
        rw [if_neg (by simp), itemProblems_eq_nil_iff]
        simp
  · rw [if_neg (by simp [hbind]), itemProblems_eq_nil_iff]
    simp [hbind]

theorem problemsOf_eq_nil_iff {name : String} {s : Setting} :
    problemsOf name s = [] ↔ Fits name s := by
  have hroot : "root" ∉ textSettings ∧ "root" ∉ listSettings := by decide
  have hapart : ∀ n ∈ textSettings, n ∉ listSettings := by decide
  unfold problemsOf
  by_cases htext : name ∈ textSettings
  · have hne : name ≠ "root" := fun he => hroot.1 (he ▸ htext)
    rw [if_pos (List.contains_iff_mem.mpr htext)]
    cases s with
    | text value => simp [Fits, htext, hne, textProblems_eq_nil_iff]
    | list items => simp [Fits, hne, hapart name htext]
    | other => simp [Fits, hne]
  · rw [if_neg (mt List.contains_iff_mem.mp htext)]
    by_cases hlist : name ∈ listSettings
    · have hne : name ≠ "root" := fun he => hroot.2 (he ▸ hlist)
      rw [if_pos (List.contains_iff_mem.mpr hlist)]
      cases s with
      | text value => simp [Fits, hne, htext]
      | list items => simp [Fits, hne, hlist, listProblems_eq_nil_iff]
      | other => simp [Fits, hne]
    · rw [if_neg (mt List.contains_iff_mem.mp hlist)]
      by_cases hne : name = "root"
      · cases s <;> simp [Fits, hne]
      · cases s <;> simp [Fits, hne, htext, hlist]

/-- Settings of which each fits. -/
def Fitting (settings : Table Setting) : Prop :=
  ∀ name s, settings.get? name = some s → Fits name s

theorem problems_eq_nil_iff {settings : Table Setting}
    (h : settings.keys.Nodup) :
    settings.entries.flatMap (fun (name, s) => problemsOf name s) = [] ↔
    Fitting settings := by
  rw [List.flatMap_eq_nil_iff]
  constructor
  · intro hnone name s hs
    exact problemsOf_eq_nil_iff.mp (hnone (name, s) (Table.get?_mem hs))
  · rintro hfits ⟨name, s⟩ he
    exact problemsOf_eq_nil_iff.mpr (hfits name s (Table.get?_of_mem h he))

theorem check_ok_iff {settings : Table Setting} (h : settings.keys.Nodup)
    {config : Config} : check root settings = .ok config ↔
    Fitting settings ∧ config = ofSettings root settings := by
  unfold check
  split
  · next hnone =>
      rw [Except.ok.injEq]
      exact ⟨fun he => ⟨(problems_eq_nil_iff h).mp hnone, he.symm⟩,
        fun he => he.2.symm⟩
  · next hsome =>
      refine ⟨fun he => ?_, fun he =>
        absurd ((problems_eq_nil_iff h).mpr he.1) hsome⟩
      cases he

theorem check_reported {settings : Table Setting} {f : ConfigFault}
    (h : check root settings = .error f) : f.isReported = true := by
  unfold check at h
  split at h
  · cases h
  · cases h
    rfl

/-! ## The fields of a configuration -/

/-- The field of a configuration that a setting is about, as a setting. -/
def setting? (c : Config) : String → Option Setting
  | "root" => some (.text c.root)
  | "entry_file" => some (.text c.entryFile)
  | "bridge_module" => some (.text c.bridgeModule)
  | "bind_methods" => some (.list (c.bindMethods.map .text))
  | "bind_keyword" => some (.text c.bindKeyword)
  | "root_package" => some (.text c.rootPackage)
  | "module_dir" => some (.text c.moduleDir)
  | "templates_dir" => c.templatesDir.map .text
  | "exclude_dirs" => some (.list (c.excludeDirs.map .text))
  | _ => none

theorem text?_of_fitting {settings : Table Setting} (h : Fitting settings)
    {name : String} (hname : name ∈ textSettings) :
    (text? settings name).map .text = settings.get? name := by
  have hroot : "root" ∉ textSettings := by decide
  have hapart : ∀ n ∈ textSettings, n ∉ listSettings := by decide
  have hne : name ≠ "root" := fun he => hroot (he ▸ hname)
  unfold text?
  cases hget : settings.get? name with
  | none => rfl
  | some s =>
      have hfits := h name s hget
      cases s with
      | text value => rfl
      | list items => simp [Fits, hne, hapart name hname] at hfits
      | other => simp [Fits, hne] at hfits

theorem filterMap_text {f : Setting → Option String}
    (hf : ∀ value, f (.text value) = some value) {items : List Setting}
    (h : ∀ item ∈ items, isText item = true) :
    (items.filterMap f).map Setting.text = items := by
  induction items with
  | nil => rfl
  | cons item items ih =>
      have hitems := ih fun i hi => h i (List.mem_cons_of_mem item hi)
      cases item with
      | text value =>
          rw [List.filterMap_cons_some (hf value), List.map_cons, hitems]
      | list inner => exact absurd (h _ List.mem_cons_self) Bool.false_ne_true
      | other => exact absurd (h _ List.mem_cons_self) Bool.false_ne_true

theorem list?_of_fitting {settings : Table Setting} (h : Fitting settings)
    {name : String} (hname : name ∈ listSettings) :
    (list? settings name).map (fun values => .list (values.map .text)) =
    settings.get? name := by
  have hroot : "root" ∉ listSettings := by decide
  have hapart : ∀ n ∈ textSettings, n ∉ listSettings := by decide
  have hne : name ≠ "root" := fun he => hroot (he ▸ hname)
  have hnotText : name ∉ textSettings := fun ht => hapart name ht hname
  unfold list?
  cases hget : settings.get? name with
  | none => rfl
  | some s =>
      have hfits := h name s hget
      cases s with
      | text value => simp [Fits, hne, hnotText] at hfits
      | other => simp [Fits, hne] at hfits
      | list items =>
          simp only [Fits, hne, false_or] at hfits
          rw [Option.map_some, filterMap_text (fun _ => rfl) hfits.2.1]

theorem getD_map_text {o : Option String} {settings : Option Setting}
    (h : o.map .text = settings) (default : String) :
    some (.text (o.getD default)) = settings.or (some (.text default)) := by
  subst h
  cases o <;> rfl

theorem getD_map_list {o : Option (List String)} {settings : Option Setting}
    (h : o.map (fun values => .list (values.map .text)) = settings)
    (default : List String) : some (.list ((o.getD default).map .text)) =
    settings.or (some (.list (default.map .text))) := by
  subst h
  cases o <;> rfl

/-- A field of the configuration that fitting settings make is what is set,
else the default. -/
theorem setting?_ofSettings {settings : Table Setting} (h : Fitting settings)
    {name : String} (hroot : name ≠ "root") :
    (ofSettings root settings).setting? name =
      (settings.get? name).or (({ root } : Config).setting? name) := by
  unfold setting?
  split
  · exact absurd rfl hroot
  · exact getD_map_text (text?_of_fitting h (by decide)) _
  · exact getD_map_text (text?_of_fitting h (by decide)) _
  · exact getD_map_list (list?_of_fitting h (by decide)) _
  · exact getD_map_text (text?_of_fitting h (by decide)) _
  · exact getD_map_text (text?_of_fitting h (by decide)) _
  · exact getD_map_text (text?_of_fitting h (by decide)) _
  · rw [← text?_of_fitting h (by decide)]
    exact (Option.or_none).symm
  · exact getD_map_list (list?_of_fitting h (by decide)) _
  · have hnone : settings.get? name = none := by
      cases hget : settings.get? name with
      | none => rfl
      | some s =>
          have hfits := h name s hget
          cases s <;> simp_all [Fits, textSettings, listSettings]
    rw [hnone, Option.none_or]

/-! ## Overrides -/

/-- The overrides that are not none. -/
def given (overrides : List (String × Option Setting)) :
    List (String × Setting) :=
  overrides.filterMap fun (name, s) => s.map (name, ·)

/-- The setting of a name that counts: what is given for it, else what the
section says. -/
def counting (entries : Toml.Entries)
    (overrides : List (String × Option Setting)) (name : String) :
    Option Setting :=
  ((Table.ofList (given overrides)).get? name).or
    ((sectionSettings entries).get? name)

/-- Settings with others laid over them. -/
def overlaid (settings : Table Setting) (more : List (String × Setting)) :
    Table Setting :=
  more.foldl (fun t (name, s) => t.insert name s) settings

theorem overlaid_snoc (settings : Table Setting)
    (more : List (String × Setting)) (e : String × Setting) :
    overlaid settings (more ++ [e]) =
    (overlaid settings more).insert e.1 e.2 := by
  rw [overlaid, List.foldl_append]
  rfl

theorem get?_overlaid (settings : Table Setting)
    (more : List (String × Setting)) (name : String) :
    (overlaid settings more).get? name =
      ((Table.ofList more).get? name).or (settings.get? name) := by
  induction more using List.reverseRecOn with
  | nil => rfl
  | append_singleton more e ih =>
      rw [overlaid_snoc, Table.ofList_snoc, Table.get?_insert,
        Table.get?_insert, ih]
      split <;> rfl

theorem nodup_overlaid {settings : Table Setting} (h : settings.keys.Nodup)
    (more : List (String × Setting)) : (overlaid settings more).keys.Nodup := by
  induction more using List.reverseRecOn with
  | nil => exact h
  | append_singleton more e ih =>
      rw [overlaid_snoc]
      exact Table.nodup_insert ih e.1 e.2

/-! ## Loading -/

theorem load_said {entries : Toml.Entries} (h : Says files root entries)
    (overrides : List (String × Setting)) : load files root overrides =
      check (Path.absolute root)
        (overlaid (sectionSettings entries) overrides) := by
  unfold load
  dsimp only
  rw [fileSettings_said h]
  rfl

theorem load_fault {f : ConfigFault}
    (h : fileSettings files (Path.absolute root) = .error f)
    (overrides : List (String × Setting)) :
    load files root overrides = .error f := by
  unfold load
  dsimp only
  rw [h]
  rfl

/-- Where the project file says something, what counts decides whether there is
a configuration. -/
theorem load_said_iff {entries : Toml.Entries} (h : Says files root entries)
    (overrides : List (String × Option Setting)) {config : Config} :
    load files root (given overrides) = .ok config ↔
      Fitting (overlaid (sectionSettings entries) (given overrides)) ∧
        config = ofSettings (Path.absolute root)
          (overlaid (sectionSettings entries) (given overrides)) := by
  rw [load_said h]
  exact check_ok_iff (nodup_overlaid (Table.nodup_ofList _) _)

theorem says_of_load {overrides : List (String × Setting)} {config : Config}
    (h : load files root overrides = .ok config) :
    ∃ entries, Says files root entries := by
  rcases fileSettings_outcome files root with hsays | hunforeseen | ⟨f, hf, -⟩
  · exact hsays
  · obtain ⟨f, hf, -⟩ := fileSettings_unforeseen hunforeseen
    rw [load_fault hf] at h
    cases h
  · rw [load_fault hf] at h
    cases h

theorem load_unreported_iff {overrides : List (String × Setting)} :
    (∃ f, load files root overrides = .error f ∧ f.isReported = false) ↔
    Unforeseen files root := by
  constructor
  · rintro ⟨f, hload, hreported⟩
    rcases fileSettings_outcome files root with ⟨entries, hsays⟩ | hunforeseen |
      ⟨f', hf', hreported'⟩
    · rw [load_said hsays] at hload
      rw [check_reported hload] at hreported
      cases hreported
    · exact hunforeseen
    · rw [load_fault hf'] at hload
      cases hload
      rw [hreported'] at hreported
      cases hreported
  · intro h
    obtain ⟨f, hf, hreported⟩ := fileSettings_unforeseen h
    exact ⟨f, load_fault hf overrides, hreported⟩

/-- Loading stops with a fault that is not reported exactly if the project file
is no text or its entry of the tools is no table. It gives a configuration
exactly if the project file says something and each setting that counts fits.
Then the root is the one it was asked for, and each other field is what counts
or the default. -/
theorem load_exact (files : FileTree) (root : String)
    (overrides : List (String × Option Setting)) :
    ((∃ f, load files root (given overrides) = .error f ∧
      f.isReported = false) ↔ Unforeseen files root) ∧
    ((∃ c, load files root (given overrides) = .ok c) ↔
      ∃ entries, Says files root entries ∧
        ∀ name s, counting entries overrides name = some s → Fits name s) ∧
    ∀ c entries, load files root (given overrides) = .ok c →
    Says files root entries →
      c.root = Path.absolute root ∧ ∀ name, name ≠ "root" →
        c.setting? name = (counting entries overrides name).or
          (({ root := Path.absolute root } : Config).setting? name) := by
  have hcounting (entries : Toml.Entries) (name : String) :
      (overlaid (sectionSettings entries) (given overrides)).get? name =
        counting entries overrides name := get?_overlaid _ _ name
  refine ⟨load_unreported_iff, ⟨?_, ?_⟩, ?_⟩
  · rintro ⟨c, hc⟩
    obtain ⟨entries, hsays⟩ := says_of_load hc
    refine ⟨entries, hsays, fun name s hs => ?_⟩
    exact ((load_said_iff hsays overrides).mp hc).1 name s
      ((hcounting entries name).trans hs)
  · rintro ⟨entries, hsays, hfits⟩
    refine ⟨_, (load_said_iff hsays overrides).mpr ⟨fun name s hs => ?_, rfl⟩⟩
    exact hfits name s ((hcounting entries name).symm.trans hs)
  · intro c entries hc hsays
    obtain ⟨hfitting, rfl⟩ := (load_said_iff hsays overrides).mp hc
    refine ⟨rfl, fun name hroot => ?_⟩
    rw [setting?_ofSettings hfitting hroot, hcounting]

end Config

namespace Sample

open Config

/-- A project whose only file is the project file. -/
def projectOf (content : List UInt8) : FileTree :=
  ⟨.directory [("pyproject.toml", .file content)]⟩

/-- A project file with a root of its own, which does not matter, and a
directory for the bindings. -/
def webProject : FileTree :=
  projectOf (Text.encodeUtf8 "[tool.bindgen]\nmodule_dir = \"web\"\nroot = 3\n")

/-- The directory is overridden, and the entry file is overridden by nothing. -/
def webOverrides : List (String × Option Setting) :=
  [("module_dir", some (.text "out")), ("entry_file", none)]

/-- The given directory counts, and not the root that the file names. -/
theorem webProject_loads :
    ∃ c, load webProject "/" (Config.given webOverrides) = .ok c ∧
    c.root = "/" ∧ ∃ entries, Says webProject "/" entries ∧
      (∀ name s, counting entries webOverrides name = some s → Fits name s) ∧
      ∀ name, name ≠ "root" → c.setting? name =
        (counting entries webOverrides name).or
        (({ root := "/" } : Config).setting? name) := by
  obtain ⟨-, hloads, hfields⟩ := load_exact webProject "/" webOverrides
  have hload : load webProject "/" (Config.given webOverrides) =
      .ok { root := "/", moduleDir := "out" } := by
    decide +kernel
  obtain ⟨entries, hsays, hfits⟩ := hloads.mp ⟨_, hload⟩
  obtain ⟨hroot, hsettings⟩ := hfields _ entries hload hsays
  exact ⟨_, hload, hroot, entries, hsays, hfits, hsettings⟩

/-- A byte that no text begins with, and a project file whose tools are a
number: neither fault is reported. -/
theorem project_unreported :
    (∃ f, load (projectOf [0xff]) "/" [] = .error f ∧ f.isReported = false) ∧
    ∃ f, load (projectOf (Text.encodeUtf8 "tool = 3\n")) "/" [] = .error f ∧
      f.isReported = false :=
  ⟨⟨.unreadable "/pyproject.toml", by decide +kernel, rfl⟩,
    .noTools "/pyproject.toml", by decide +kernel, rfl⟩

end Sample

end BridgeBindings
