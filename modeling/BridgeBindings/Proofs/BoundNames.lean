import BridgeBindings.Proofs.Histories
import BridgeBindings.Proofs.Loaded
import BridgeBindings.Proofs.Parameters
import BridgeBindings.Proofs.TypeTexts
import BridgeBindings.Proofs.Upkeep

/-!
# The names that declarations bind

The declarations of a package bind a name for each package that they import and
for each class that they export. The former are written with underscores for
dots, the latter as they are, and nothing looks at them all together. That they
are identifiers comes from the program: whatever a draft is named for is a class
that the program declares, from the first store to the last. That each is bound
once, and is free to be bound, is up to the names of packages and classes; of
these only the ones that a package really imports and exports count.
-/

namespace BridgeBindings

open Render

/-! ## What drafts are named for -/

/-- The references, structs and methods of a draft are named for classes
of the program. -/
structure Draft.Native (t : Symbols) (d : Draft) : Prop where
  references : ∀ q ∈ d.references, ∃ c, t.Declares c ∧ c.package = q
  structs : ∀ st ∈ d.structs.values, ∃ c, t.Declares c ∧ c.name = st.name
  methods : ∀ m ∈ d.methods.values, ∃ c, t.Declares c ∧ c.name = m.structName

namespace Draft.Native

variable {t : Symbols} {d : Draft} (h : d.Native t)

theorem empty (t : Symbols) (name : String) (isRoot : Bool) :
    Draft.Native t { name, isRoot } :=
  ⟨fun _ hq => absurd hq List.not_mem_nil, fun _ hst =>
    absurd hst List.not_mem_nil, fun _ hm => absurd hm List.not_mem_nil⟩

include h

theorem register {c : ProgramClass} (hc : t.Declares c) (module : String)
    (comments : List CodeText) :
    (d.register c.name module comments).Native t := by
  refine ⟨h.references, fun st hst => ?_, h.methods⟩
  unfold Draft.register Table.insertNew at hst
  split at hst
  · exact h.structs st hst
  · rcases Table.mem_values_insert hst with rfl | hst
    · exact ⟨c, hc, rfl⟩
    · exact h.structs st hst

theorem complete (name : String) (fields : List StructField) :
    (d.complete name fields).Native t := by
  unfold Draft.complete
  split
  · next st hget =>
      refine ⟨h.references, fun st' hst' => ?_, h.methods⟩
      rcases Table.mem_values_insert hst' with rfl | hst'
      · exact h.structs st (Table.mem_values_of_get? hget)
      · exact h.structs st' hst'
  · exact h

theorem addReference {c : ProgramClass} (hc : t.Declares c) :
    (d.addReference c.package).Native t := by
  unfold Draft.addReference
  split
  · exact h
  · refine ⟨fun q hq => ?_, h.structs, h.methods⟩
    rcases List.mem_cons.mp hq with rfl | hq
    · exact ⟨c, hc, rfl⟩
    · exact h.references q hq

theorem addMethod {c : ProgramClass} {m : BoundMethod} (hc : t.Declares c)
    (hm : m.structName = c.name) : (d.addMethod m).Native t := by
  refine ⟨h.references, h.structs, fun m' hm' => ?_⟩
  rcases Table.mem_values_insert hm' with rfl | hm'
  · exact ⟨c, hc, hm.symm⟩
  · exact h.methods m' hm'

end Draft.Native

theorem upheld_native (t : Symbols) : t.Upheld fun _ d => d.Native t := by
  intro p d e he h
  cases he with
  | register hc => exact h.register hc _ _
  | complete fields hc => exact h.complete _ fields
  | addReference owner hc => exact h.addReference hc
  | addUnresolved owner name => exact ⟨h.references, h.structs, h.methods⟩
  | addMethod hc _ hstruct => exact h.addMethod hc hstruct

/-! ## What packages are named for -/

namespace Package

/-- The names of the classes that the declarations of a package export. -/
def exportedNames (p : Package) : List String :=
  p.dataStructs.map (·.name) ++ p.services.map (·.1)

theorem mem_services {p : Package} {n : String} (h : n ∈ p.services.map (·.1)) :
    ∃ m ∈ p.methods, m.structName = n := by
  unfold services at h
  rw [List.map_map] at h
  obtain ⟨n', hn', rfl⟩ := List.mem_map.mp h
  exact List.mem_map.mp (mem_sortedSet.mp hn')

/-- The imports and exports of a package are named for classes
of the program. -/
structure Native (t : Symbols) (p : Package) : Prop where
  references : ∀ q ∈ p.references, ∃ c, t.Declares c ∧ c.package = q
  exported : ∀ n ∈ p.exportedNames, ∃ c, t.Declares c ∧ c.name = n
  once : p.references.Nodup

end Package

theorem answer_native {config : Config} {program : Program} {log : Log}
    {r : AnalysisResult} {p : Package} {q : String}
    (hr : Analysis.answer config program log = .ok r)
    (hp : r.packages.get? q = some p) :
    p.Native (Symbols.ofProgram program) := by
  rw [← Order.sorted_answer] at hr
  obtain ⟨surface, s, hs, hbuilt⟩ :=
    (Order.sorted program).answer_upheld (upheld_native _)
      (.ofPackages (.empty _) _ _ log) hr
  have hnative := hs q
  have hmarked := marked_classify (Symbols.ofProgram program) surface s q
  obtain ⟨-, rfl⟩ := hbuilt q p hp
  refine ⟨fun q' hq' => ?_, fun n hn => ?_, (increasing_sortedSet _).nodup⟩
  · refine hnative.references q' ?_
    rw [← hmarked.references]
    exact mem_sortedSet.mp hq'
  · rcases List.mem_append.mp hn with hn | hn
    · obtain ⟨st, hst, rfl⟩ := List.mem_map.mp hn
      obtain ⟨key, hentry, -⟩ := mem_dataStructs.mp hst
      have hentry := List.mem_mergeSort.mp hentry
      rw [hmarked.structs] at hentry
      exact hnative.structs st (List.mem_map_of_mem hentry)
    · obtain ⟨m, hm, rfl⟩ := Package.mem_services hn
      obtain ⟨e, he, rfl⟩ := List.mem_map.mp hm
      have he := List.mem_mergeSort.mp he
      rw [hmarked.methods] at he
      exact hnative.methods e.2 (List.mem_map_of_mem he)

/-! ## Names of packages as identifiers -/

namespace Text

/-- A dotted identifier is one identifier once its dots are underscores. -/
theorem isIdentifier_importName {package : String}
    (h : isDottedIdentifier package = true) :
    isIdentifier (importName package) = true := by
  -- the first character begins a part, so it may begin an identifier, and each
  -- other one is of a part or stands for a dot
  have hpart : ∀ part ∈ splitOnChar '.' package.toList,
      isIdentifierChars part = true := by
    intro part hpart
    have hident :=
      List.all_eq_true.mp h (String.ofList part) (List.mem_map_of_mem hpart)
    rwa [isIdentifier, String.toList_ofList] at hident
  have hextends : ∀ c ∈ package.toList,
      extendsIdentifier (if c = '.' then '_' else c) = true := by
    intro c hc
    split
    · rfl
    · next hdot =>
        obtain ⟨part, hmem, hcpart⟩ := exists_part_of_mem hc hdot
        have hword : IsWord (String.ofList part) := isWord_of_isIdentifier (by
          rw [isIdentifier, String.toList_ofList]
          exact hpart part hmem)
        exact hword.2 c (by rwa [String.toList_ofList])
  rw [isIdentifier, importName, String.toList_ofList]
  cases hchars : package.toList with
  | nil =>
      rw [hchars] at hpart
      exact absurd (hpart [] List.mem_cons_self) (by decide)
  | cons c cs =>
      rw [hchars] at hpart hextends
      rw [List.map_cons, isIdentifierChars, Bool.and_eq_true]
      refine ⟨?_, List.all_eq_true.mpr fun d hd => ?_⟩
      · rw [splitOnChar] at hpart
        split at hpart
        · exact absurd (hpart [] List.mem_cons_self) (by decide)
        · next hdot =>
            rw [if_neg hdot]
            split at hpart <;>
              exact (Bool.and_eq_true_iff.mp (hpart _ List.mem_cons_self)).1
      · obtain ⟨c', hc', rfl⟩ := List.mem_map.mp hd
        exact hextends c' (List.mem_cons_of_mem _ hc')

end Text

namespace Render

/-- The words that no module in strict mode can bind. -/
def strictWords : List String :=
  reserved ++ ["break", "class", "continue", "else", "finally", "for", "if",
    "import", "in", "return", "try", "while", "with"]

theorem importName_of_undotted {package : String} (h : '.' ∉ package.toList) :
    importName package = package := by
  rw [importName, ← String.toList_inj, String.toList_ofList]
  refine (List.map_congr_left fun c hc => ?_).trans (List.map_id _)
  exact if_neg fun he : c = '.' => h (he ▸ hc)

/-- A package is imported under such a word only if that is its own name: none
has an underscore. -/
theorem importName_mem_strictWords {package : String} :
    importName package ∈ strictWords ↔ package ∈ strictWords := by
  have hplain : ∀ w ∈ strictWords, '_' ∉ w.toList ∧ '.' ∉ w.toList := by decide
  constructor
  · intro h
    have hdot : '.' ∉ package.toList := by
      intro hdot
      refine (hplain _ h).1 ?_
      rw [importName, String.toList_ofList]
      exact List.mem_map.mpr ⟨'.', hdot, if_pos rfl⟩
    rwa [importName_of_undotted hdot] at h
  · intro h
    rwa [importName_of_undotted (hplain _ h).2]

/-! ## Reading declarations -/

/-- The name behind a mark with which a line begins. -/
def named? (mark line : String) : Option String :=
  (line.toList.dropPrefix? mark.toList).map fun rest =>
    String.ofList (rest.takeWhile Text.extendsIdentifier)

/-- The name under which a line imports a package. -/
def imported? (line : String) : Option String := named? "import type * as " line

/-- The name of the interface or of the constant that a line exports. -/
def exported? (line : String) : Option String :=
  (named? "export interface " line).or (named? "export declare const " line)

/-- The namespaces that lines import, in order. -/
def namespaces (ls : List String) : List String := ls.filterMap imported?

/-- The interfaces and constants that lines export, in order. -/
def exports (ls : List String) : List String := ls.filterMap exported?

theorem named?_eq (mark : String) {name rest : String}
    (hname : Text.IsWord name)
    (hrest : rest.toList.head?.any Text.extendsIdentifier = false) :
    named? mark (mark ++ name ++ rest) = some name := by
  have hdrop : (mark ++ name ++ rest).toList.dropPrefix? mark.toList =
      some (name.toList ++ rest.toList) := by
    refine List.dropPrefix?_eq_some_iff.mpr ⟨_, ?_, beq_self_eq_true _⟩
    rw [String.toList_append, String.toList_append, List.append_assoc]
  have hend : rest.toList.takeWhile Text.extendsIdentifier = [] := by
    cases hchars : rest.toList with
    | nil => rfl
    | cons c cs =>
        rw [hchars] at hrest
        exact List.takeWhile_cons_of_neg (Bool.not_eq_true _ ▸ hrest)
  rw [named?, hdrop, Option.map_some, List.takeWhile_append_of_pos hname.2,
    hend, List.append_nil, String.ofList_toList]

theorem head?_toList_append {s : String} (h : s ≠ "") (s' : String) :
    (s ++ s').toList.head? = s.toList.head? := by
  have hne : s.toList ≠ [] := fun he => h (String.toList_eq_nil_iff.mp he)
  rw [String.toList_append, List.head?_append_of_ne_nil _ hne]

/-- A line without a mark that binds names: neither letter with which one
begins is first. -/
def Quiet (line : String) : Prop :=
  line.toList.head? ≠ some 'i' ∧ line.toList.head? ≠ some 'e'

instance (line : String) : Decidable (Quiet line) :=
  inferInstanceAs (Decidable (_ ∧ _))

theorem named?_none {mark line : String} {c : Char}
    (hmark : mark.toList.head? = some c) (h : line.toList.head? ≠ some c) :
    named? mark line = none := by
  obtain ⟨cs, hcs⟩ := List.head?_eq_some_iff.mp hmark
  rw [named?, hcs, Option.map_eq_none_iff]
  cases hline : line.toList with
  | nil => rfl
  | cons d ds =>
      rw [hline, List.head?_cons] at h
      rw [List.dropPrefix?, if_neg]
      simpa using fun he : d = c => h (congrArg some he)

namespace Quiet

variable {line : String} (h : Quiet line)

include h

theorem imported?_eq : imported? line = none := named?_none rfl h.1

theorem exported?_eq : exported? line = none := by
  rw [exported?, named?_none rfl h.2, named?_none rfl h.2]
  rfl

end Quiet

theorem quiet_tabbed (line : String) : Quiet ("\t" ++ line) := by
  rw [Quiet, head?_toList_append (by decide)]
  decide

theorem quiet_comment (comment : CodeText) : Quiet (docLine "// " comment) := by
  have hchars : (docLine "// " comment).toList.head? = some '/' := by
    unfold docLine Text.trimEnd
    rw [String.toList_ofList, String.toList_append]
    exact congrArg List.head? (trimEndChars_cons rfl _)
  rw [Quiet, hchars]
  decide

theorem quiet_field {package line : String} {f : StructField}
    (h : line ∈ fieldLines package f) : Quiet line := by
  rcases List.mem_append.mp h with h | h
  · obtain ⟨c, -, rfl⟩ := List.mem_map.mp h
    exact quiet_tabbed _
  · rw [List.mem_singleton.mp h]
    simp only [String.append_assoc]
    exact quiet_tabbed _

/-- The constant of a service in the declarations of its package. -/
def constantLine (service : String) : String :=
  "export declare const " ++ service ++ ": " ++ service ++ ";"

/-- Lines that bind these namespaces and these exports, in this order. -/
structure Binds (ls ns es : List String) : Prop where
  imported : namespaces ls = ns
  exported : exports ls = es

namespace Binds

variable {ls ls' ns ns' es es' : List String}

theorem quiet (h : ∀ l ∈ ls, Quiet l) : Binds ls [] [] :=
  ⟨List.filterMap_eq_nil_iff.mpr fun l hl => (h l hl).imported?_eq,
    List.filterMap_eq_nil_iff.mpr fun l hl => (h l hl).exported?_eq⟩

theorem append (h : Binds ls ns es) (h' : Binds ls' ns' es') :
    Binds (ls ++ ls') (ns ++ ns') (es ++ es') := by
  obtain ⟨rfl, rfl⟩ := h
  obtain ⟨rfl, rfl⟩ := h'
  exact ⟨List.filterMap_append, List.filterMap_append⟩

theorem flatMap {α : Type} {xs : List α} {ls ns es : α → List String}
    (h : ∀ x ∈ xs, Binds (ls x) (ns x) (es x)) :
    Binds (xs.flatMap ls) (xs.flatMap ns) (xs.flatMap es) := by
  induction xs with
  | nil => exact ⟨rfl, rfl⟩
  | cons x xs ih =>
      exact (h x List.mem_cons_self).append
        (ih fun x' hx' => h x' (List.mem_cons_of_mem x hx'))

theorem ofImport {package : String} (h : Text.IsWord (importName package)) :
    Binds [importLine package] [importName package] [] := by
  have hline : importLine package =
      "import type * as " ++ importName package ++
      (" from \"../" ++ (package ++ "\";")) := by
    unfold importLine
    simp only [String.append_assoc]
  have himported : imported? (importLine package) =
      some (importName package) := by
    rw [hline]
    refine named?_eq _ h ?_
    rw [head?_toList_append (by decide)]
    decide
  have hhead : (importLine package).toList.head? ≠ some 'e' := by
    rw [hline, String.append_assoc, head?_toList_append (by decide)]
    decide
  have hexported : exported? (importLine package) = none := by
    rw [exported?, named?_none rfl hhead, named?_none rfl hhead]
    rfl
  exact ⟨List.filterMap_cons_some himported, List.filterMap_cons_none hexported⟩

theorem ofInterface {name : String} (h : Text.IsWord name) :
    Binds [interfaceLine name] [] [name] := by
  have himported : imported? (interfaceLine name) = none := by
    refine named?_none (c := 'i') rfl ?_
    unfold interfaceLine
    rw [String.append_assoc, head?_toList_append (by decide)]
    decide
  have hexported : exported? (interfaceLine name) = some name := by
    unfold exported? interfaceLine
    rw [named?_eq _ h (by decide), Option.some_or]
  exact ⟨List.filterMap_cons_none himported, List.filterMap_cons_some hexported⟩

theorem ofConstant {name : String} (h : Text.IsWord name) :
    Binds [constantLine name] [] [name] := by
  have hline : constantLine name =
      "export declare const " ++ name ++ (": " ++ (name ++ ";")) := by
    unfold constantLine
    simp only [String.append_assoc]
  have himported : imported? (constantLine name) = none := by
    refine named?_none (c := 'i') rfl ?_
    rw [hline, String.append_assoc, head?_toList_append (by decide)]
    decide
  have hother : named? "export interface " (constantLine name) = none := by
    unfold named? constantLine
    simp only [String.toList_append, List.append_assoc]
    rfl
  have hexported : exported? (constantLine name) = some name := by
    rw [exported?, hother, Option.none_or, hline]
    refine named?_eq _ h ?_
    rw [head?_toList_append (by decide)]
    decide
  exact ⟨List.filterMap_cons_none himported, List.filterMap_cons_some hexported⟩

theorem ofStruct (package : String) {st : Struct} (h : Text.IsWord st.name) :
    Binds (structLines package st) [] [st.name] := by
  have hlines : structLines package st =
      "" :: st.comments.map (docLine "// ") ++ [interfaceLine st.name] ++
      (st.fields.flatMap (fieldLines package) ++ ["\x7d"]) := by
    unfold structLines interfaceLine
    rw [List.append_assoc]
  have habove : ∀ l ∈ "" :: st.comments.map (docLine "// "), Quiet l := by
    intro l hl
    rcases List.mem_cons.mp hl with rfl | hl
    · decide
    · obtain ⟨c, -, rfl⟩ := List.mem_map.mp hl
      exact quiet_comment c
  have hbelow : ∀ l ∈ st.fields.flatMap (fieldLines package) ++ ["\x7d"],
      Quiet l := by
    intro l hl
    rcases List.mem_append.mp hl with hl | hl
    · obtain ⟨f, -, hl⟩ := List.mem_flatMap.mp hl
      exact quiet_field hl
    · rw [List.mem_singleton.mp hl]
      decide
  rw [hlines]
  exact ((quiet habove).append (ofInterface h)).append (quiet hbelow)

theorem ofService (package : String) {service : String}
    (methods : List BoundMethod) (h : Text.IsWord service) :
    Binds (serviceLines package service methods) [] [service, service] := by
  have hlines : serviceLines package service methods =
      [""] ++ [interfaceLine service] ++
        (methods.flatMap
          (fun m => m.comments.map (fun c => "\t" ++ docLine "// " c) ++
          ["\t" ++ signature package m]) ++ ["\x7d", ""]) ++
          [constantLine service] := by
    unfold serviceLines interfaceLine constantLine
    simp only [List.append_assoc, List.cons_append, List.nil_append]
  have hempty : ∀ l ∈ [""], Quiet l := by decide
  have hend : ∀ l ∈ ["\x7d", ""], Quiet l := by decide
  have hmethods : ∀ l ∈ methods.flatMap (fun m =>
      m.comments.map (fun c => "\t" ++ docLine "// " c) ++
        ["\t" ++ signature package m]) ++ ["\x7d", ""], Quiet l := by
    intro l hl
    rcases List.mem_append.mp hl with hl | hl
    · obtain ⟨m, -, hl⟩ := List.mem_flatMap.mp hl
      rcases List.mem_append.mp hl with hl | hl
      · obtain ⟨c, -, rfl⟩ := List.mem_map.mp hl
        exact quiet_tabbed _
      · rw [List.mem_singleton.mp hl]
        exact quiet_tabbed _
    · exact hend l hl
  rw [hlines]
  exact (((quiet hempty).append (ofInterface h)).append (quiet hmethods)).append
    (ofConstant h)

/-- The declarations of a package bind the names of its imports, those
of its data structs, and those of its services, each as an interface and
as a constant. -/
theorem ofPackage {p : Package}
    (hreferences : ∀ q ∈ p.references, Text.IsWord (importName q))
    (hexported : ∀ n ∈ p.exportedNames, Text.IsWord n) :
    Binds (declarationLines p) (p.references.map importName)
      (p.dataStructs.map (·.name) ++ p.services.flatMap fun service =>
        [service.1, service.1]) := by
  have hheader : ∀ l ∈ [header p.name], Quiet l := by
    intro l hl
    rw [List.mem_singleton.mp hl]
    unfold header
    rw [Quiet, String.append_assoc, head?_toList_append (by decide)]
    decide
  have himports := flatMap fun q hq => ofImport (hreferences q hq)
  have hdata := flatMap fun st (hst : st ∈ p.dataStructs) => ofStruct p.name
    (hexported st.name (List.mem_append_left _ (List.mem_map_of_mem hst)))
  have hservices := flatMap fun service (hservice : service ∈ p.services) =>
    ofService p.name service.2
      (hexported service.1
        (List.mem_append_right _ (List.mem_map_of_mem hservice)))
  have hend : namespaces exportsNothing = [] ∧
      exports exportsNothing = [] := by decide
  have hnothing (empty : Bool) :
      Binds (if empty then exportsNothing else []) [] [] := by
    cases empty
    · exact ⟨rfl, rfl⟩
    · exact ⟨hend.1, hend.2⟩
  have hnone {α : Type} (xs : List α) :
      xs.flatMap (fun _ => ([] : List String)) = [] :=
    List.flatMap_eq_nil_iff.mpr fun _ _ => rfl
  have hall :=
    ((((quiet hheader).append himports).append hdata).append hservices).append
    (hnothing (p.dataStructs.isEmpty && p.services.isEmpty))
  simp only [hnone, List.nil_append, List.append_nil, ← List.map_eq_flatMap]
    at hall
  exact hall

end Binds

end Render

/-! ## What is bound once -/

/-- Packages are called by identifiers with dots between them, classes
by identifiers. -/
structure Program.Identified (p : Program) : Prop where
  packages : ∀ s ∈ p.files, Text.isDottedIdentifier s.package = true
  classes : ∀ c, (Symbols.ofProgram p).Declares c →
      Text.isIdentifier c.name = true

theorem Program.Identified.package {p : Program} (h : p.Identified)
    {c : ProgramClass} (hc : (Symbols.ofProgram p).Declares c) :
    Text.isDottedIdentifier c.package = true := by
  obtain ⟨s, hs, -, hscope⟩ := Symbols.source_of_scope hc.inTree
  rw [ProgramClass.package, hscope]
  exact h.packages s hs

theorem packageName_dotted {root directory rootPackage : String}
    (h : Text.isDottedIdentifier rootPackage = true)
    (hdirs : Path.relative directory root ≠ "." →
      ∀ n ∈ Path.parts (Path.relative directory root),
        Text.isIdentifier (dashesToUnderscores n) = true) :
    Text.isDottedIdentifier
      (packageName root directory rootPackage) = true := by
  unfold packageName
  split
  · exact h
  · next hdot =>
      have hne : Path.parts (Path.relative directory root) ≠ [] :=
        Text.split_ne_nil _ _
      rw [Text.isDottedIdentifier, split_dashesToUnderscores, split_dotJoin hne,
        List.all_eq_true]
      intro _ hmem
      obtain ⟨part, hpart, rfl⟩ := List.mem_map.mp hmem
      obtain ⟨n, hn, hpart⟩ := List.mem_flatMap.mp hpart
      have hident := hdirs hdot n hn
      have hundotted : '.' ∉ n.toList := by
        intro hdot
        refine Text.undotted_of_isIdentifier hident ?_
        unfold dashesToUnderscores
        rw [String.toList_ofList]
        exact List.mem_map.mpr ⟨'.', hdot, if_neg (by decide)⟩
      rw [split_of_undotted hundotted, List.mem_singleton] at hpart
      rwa [hpart]

/-- A loaded program has such names if its classes have them and the directories
below its root are called by identifiers, apart from dashes. -/
theorem Program.identified_of_load {files : FileTree} {config : Config}
    {p : Program} {log : Log} (hvalid : config.Valid)
    (h : load files config = (.ok p, log))
    (hdirs : ∀ s ∈ p.files,
      Path.relative (Path.directoryName s.path) p.root ≠ "." →
      ∀ n ∈ Path.parts (Path.relative (Path.directoryName s.path) p.root),
        Text.isIdentifier (dashesToUnderscores n) = true)
    (hclasses : ∀ c, (Symbols.ofProgram p).Declares c →
      Text.isIdentifier c.name = true) :
    p.Identified := by
  refine ⟨fun s hs => ?_, hclasses⟩
  have hdirs := hdirs s hs
  obtain ⟨path, -, hpath⟩ := read_of_mem_files h hs
  obtain ⟨hwhere, -, -, hname⟩ := read_facts hpath
  obtain ⟨sources, rfl, -⟩ := load_sources h
  rw [hwhere] at hdirs
  rw [hname]
  exact packageName_dotted hvalid.rootPackage hdirs

/-- Lines of declarations bind no namespace twice or beside an export of that
name, and no word that cannot be bound. -/
structure Render.BindsOnce (ls : List String) : Prop where
  once : (namespaces ls).Nodup
  apart : ∀ n ∈ namespaces ls, n ∉ exports ls
  free : ∀ n ∈ namespaces ls ++ exports ls, n ∉ strictWords

namespace Package

/-- The names that a package imports and exports stay apart when
they are written. -/
structure Apart (p : Package) : Prop where
  references : ∀ a ∈ p.references, ∀ b ∈ p.references,
    importName a = importName b → a = b
  exported : ∀ q ∈ p.references, importName q ∉ p.exportedNames
  referencesFree : ∀ q ∈ p.references, q ∉ strictWords
  exportedFree : ∀ n ∈ p.exportedNames, n ∉ strictWords

theorem mem_bound {p : Package} {n : String} :
    n ∈ p.dataStructs.map (·.name) ++
    p.services.flatMap (fun service => [service.1, service.1]) ↔
      n ∈ p.exportedNames := by
  simp [exportedNames, eq_comm]

end Package

/-- All that the declarations of a package bind are identifiers: the imported
packages' names written as such, and the exported classes' names. Each is bound
once and free exactly if the names of these packages and classes stay apart. -/
theorem bound_names_iff {config : Config} {program : Program} {log : Log}
    {r : AnalysisResult} {p : Package} {q : String} (hid : program.Identified)
    (hr : Analysis.answer config program log = .ok r)
    (hp : r.packages.get? q = some p) :
    namespaces (declarationLines p) = p.references.map importName ∧
      (∀ n, n ∈ exports (declarationLines p) ↔ n ∈ p.exportedNames) ∧
      (∀ n ∈ namespaces (declarationLines p) ++ exports (declarationLines p),
        Text.isIdentifier n = true) ∧
      (BindsOnce (declarationLines p) ↔ p.Apart) := by
  -- names are read back off the lines only where they are words, and here they
  -- are identifiers, since those of the program are
  have hnative := answer_native hr hp
  have hreferences : ∀ q ∈ p.references, Text.isIdentifier
      (importName q) = true := by
    intro q hq
    obtain ⟨c, hc, rfl⟩ := hnative.references q hq
    exact Text.isIdentifier_importName (hid.package hc)
  have hexported : ∀ n ∈ p.exportedNames, Text.isIdentifier n = true := by
    intro n hn
    obtain ⟨c, hc, rfl⟩ := hnative.exported n hn
    exact hid.classes c hc
  obtain ⟨hnamespaces, hexports⟩ := Binds.ofPackage
    (fun q hq => Text.isWord_of_isIdentifier (hreferences q hq))
    (fun n hn => Text.isWord_of_isIdentifier (hexported n hn))
  have hmem : ∀ n, n ∈ exports (declarationLines p) ↔
      n ∈ p.exportedNames := fun n => by
    rw [hexports, Package.mem_bound]
  have hall : ∀ P : String → Prop,
      (∀ n ∈ namespaces (declarationLines p) ++ exports (declarationLines p),
        P n) ↔ (∀ q ∈ p.references, P (importName q)) ∧ ∀ n ∈ p.exportedNames,
          P n := fun P => by
    rw [List.forall_mem_append, hnamespaces, List.forall_mem_map]
    exact and_congr_right fun _ => forall_congr' fun n => by rw [hmem]
  refine ⟨hnamespaces, hmem, (hall _).mpr ⟨hreferences, hexported⟩,
    fun h => ?_, fun h => ?_⟩
  · obtain ⟨hfree, hfree'⟩ := (hall _).mp h.free
    have honce := h.once
    rw [hnamespaces] at honce
    refine ⟨fun a ha b hb => List.inj_on_of_nodup_map honce ha hb,
      fun q hq hexport => ?_, fun q hq hword =>
      hfree q hq (importName_mem_strictWords.mpr hword), hfree'⟩
    refine h.apart (importName q) ?_ ((hmem _).mpr hexport)
    rw [hnamespaces]
    exact List.mem_map_of_mem hq
  · refine ⟨?_, fun n hn hexport => ?_,
      (hall _).mpr ⟨fun q hq hword => ?_, h.exportedFree⟩⟩
    · rw [hnamespaces]
      exact hnative.once.map_on h.references
    · rw [hnamespaces] at hn
      obtain ⟨q, hq, rfl⟩ := List.mem_map.mp hn
      exact h.exported q hq ((hmem _).mp hexport)
    · exact h.referencesFree q hq (importName_mem_strictWords.mp hword)

/-- The names of a program's packages and classes stay apart when
they are written. -/
structure Program.Apart (p : Program) : Prop where
  packages : ∀ c d, (Symbols.ofProgram p).Declares c →
    (Symbols.ofProgram p).Declares d →
    importName c.package = importName d.package → c.package = d.package
  classes : ∀ c d, (Symbols.ofProgram p).Declares c →
    (Symbols.ofProgram p).Declares d → importName c.package ≠ d.name
  free : ∀ c, (Symbols.ofProgram p).Declares c → c.package ∉ strictWords ∧
      c.name ∉ strictWords

/-- If the names of a program stay apart, so do those of each of
its packages. -/
theorem Program.Apart.package {config : Config} {program : Program} {log : Log}
    {r : AnalysisResult} {p : Package} {q : String} (h : program.Apart)
    (hr : Analysis.answer config program log = .ok r)
    (hp : r.packages.get? q = some p) : p.Apart := by
  have hnative := answer_native hr hp
  refine ⟨fun a ha b hb hab => ?_, fun a ha hexport => ?_,
    fun a ha => ?_, fun n hn => ?_⟩
  · obtain ⟨c, hc, rfl⟩ := hnative.references a ha
    obtain ⟨d, hd, rfl⟩ := hnative.references b hb
    exact h.packages c d hc hd hab
  · obtain ⟨c, hc, rfl⟩ := hnative.references a ha
    obtain ⟨d, hd, hname⟩ := hnative.exported _ hexport
    exact h.classes c d hc hd hname.symm
  · obtain ⟨c, hc, rfl⟩ := hnative.references a ha
    exact (h.free c hc).1
  · obtain ⟨d, hd, rfl⟩ := hnative.exported n hn
    exact (h.free d hd).2

namespace Sample

open Syntax

def moneySource (package : String) : Source :=
  source package package [.cls (cls "Money" [] [field "next" (name "Money")])]

def orderingSource (package : String) : Source := source "main" "main"
  [usesBridge, .importFrom (some package) 0 [⟨"Money", none⟩],
    .cls (cls "Order" [] [field "total" (name "Money")]), emitted "Order"]

/-- A class that crosses the bridge and mentions a class of another package. -/
def ordering (package : String) : Program :=
  program [moneySource package, orderingSource package]

section Ordering

variable {package : String} (hne : package ≠ "main") (hle : package ≤ "main")

include hne hle

theorem ordering_symbols : Symbols.ofProgram (ordering package) =
    ⟨.ofList [(package, .ofSource (moneySource package)),
      ("main", .ofSource (orderingSource package))]⟩ :=
  symbols_apart (f := moneySource package) (g := orderingSource package) hne hle

theorem ordering_names : sortNames (ordering package).packages.keys =
    [package, "main"] := by
  have hkeys : (ordering package).packages.keys = [package, "main"] := by
    simp [ordering, program, moneySource, orderingSource, source,
      Program.addFile, Table.keys, Table.get?, Table.find, Table.insert,
      Table.empty, Table.put, hne]
  rw [hkeys]
  exact List.mergeSort_of_pairwise (by simpa using hle)

theorem ordering_scopes : (Symbols.ofProgram (ordering package)).sortedScopes =
    [.ofSource (moneySource package), .ofSource (orderingSource package)] := by
  have hentries : (Symbols.ofProgram (ordering package)).scopes.entries =
      [(package, .ofSource (moneySource package)),
        ("main", .ofSource (orderingSource package))] := by
    rw [ordering_symbols hne hle]
    simp [Table.ofList, Table.insert, Table.empty, Table.put, hne]
  unfold Symbols.sortedScopes
  rw [hentries, List.mergeSort_of_pairwise (by simpa using hle)]
  rfl

theorem ordering_identified
    (hpackage : Text.isDottedIdentifier package = true) :
    (ordering package).Identified := by
  have hfiles : (ordering package).files =
      [moneySource package, orderingSource package] :=
    files_apart (f := moneySource package) (g := orderingSource package) hne hle
  refine ⟨fun s hs => ?_, fun c hc => ?_⟩
  · rw [hfiles] at hs
    rcases List.mem_pair.mp hs with rfl | rfl
    · exact hpackage
    · show Text.isDottedIdentifier "main" = true
      decide
  · obtain ⟨s, hs, -, hscope⟩ := Symbols.source_of_scope hc.inTree
    have hkey := Table.mem_keys_of_get? hc.decl
    rw [hscope] at hkey
    rw [hfiles] at hs
    rcases List.mem_pair.mp hs with rfl | rfl
    · have hname : c.name = "Money" := List.mem_singleton.mp hkey
      rw [hname]
      decide
    · have hname : c.name = "Order" := List.mem_singleton.mp hkey
      rw [hname]
      decide

end Ordering

/-- What the package of the order refers to, and what it exports. -/
def orderingNames (package : String) : Option (List String × List String) :=
  ((Analysis.answer config (ordering package) []).toOption.bind
    (·.packages.get? "main")).map fun p => (p.references, p.exportedNames)

theorem ordering_answer {package : String} {references exported : List String}
    (h : orderingNames package = some (references, exported)) :
    ∃ r p, Analysis.answer config (ordering package) [] = .ok r ∧
      r.packages.get? "main" = some p ∧ p.references = references ∧
      p.exportedNames = exported := by
  obtain ⟨p, hp, hnames⟩ := Option.map_eq_some_iff.mp h
  obtain ⟨r, hr, hp⟩ := Option.bind_eq_some_iff.mp hp
  exact ⟨r, p, ok_of_toOption hr, hp, congrArg Prod.fst hnames,
    congrArg Prod.snd hnames⟩

theorem base_fits : "base" ≠ "main" ∧ "base" ≤ "main" := by decide

theorem order_fits : "Order" ≠ "main" ∧ "Order" ≤ "main" := by decide

theorem orderingNames_base :
    orderingNames "base" = some (["base"], ["Order"]) := by
  unfold orderingNames Analysis.answer Analyze.program classify payloadSeeds
    Analyze.records Analyze.classes Store.ofPackages
  simp only [ordering_scopes base_fits.1 base_fits.2,
    ordering_names base_fits.1 base_fits.2, StructKey.sortedSet_eq]
  simp only [ordering_symbols base_fits.1 base_fits.2]
  decide +kernel

theorem orderingNames_order :
    orderingNames "Order" = some (["Order"], ["Order"]) := by
  unfold orderingNames Analysis.answer Analyze.program classify payloadSeeds
    Analyze.records Analyze.classes Store.ofPackages
  simp only [ordering_scopes order_fits.1 order_fits.2,
    ordering_names order_fits.1 order_fits.2, StructKey.sortedSet_eq]
  simp only [ordering_symbols order_fits.1 order_fits.2]
  decide +kernel

/-- A package that is called unlike the classes that are exported is
bound beside them. -/
theorem ordering_binds_once : (ordering "base").Identified ∧
    ∃ r p, Analysis.answer config (ordering "base") [] = .ok r ∧
      r.packages.get? "main" = some p ∧
      namespaces (declarationLines p) = ["base"] ∧
      BindsOnce (declarationLines p) := by
  have hid : (ordering "base").Identified :=
    ordering_identified base_fits.1 base_fits.2 (by decide)
  obtain ⟨r, p, hr, hp, hreferences, hexported⟩ :=
    ordering_answer orderingNames_base
  obtain ⟨hnamespaces, -, -, honce⟩ := bound_names_iff hid hr hp
  refine ⟨hid, r, p, hr, hp, ?_, honce.mpr ?_⟩
  · rw [hnamespaces, hreferences]
    decide
  · constructor
    all_goals
      simp only [hreferences, hexported]
      decide

/-- A package that is called like a class that imports from it is bound
beside that class. -/
theorem ordering_bound_twice : (ordering "Order").Identified ∧
    ∃ r p, Analysis.answer config (ordering "Order") [] = .ok r ∧
      r.packages.get? "main" = some p ∧
      "Order" ∈ namespaces (declarationLines p) ∧
      "Order" ∈ exports (declarationLines p) ∧
      ¬BindsOnce (declarationLines p) := by
  obtain ⟨r, p, hr, hp, hreferences, hexported⟩ :=
    ordering_answer orderingNames_order
  have hword : ∀ n ∈ ["Order"], Text.IsWord n := by
    intro n hn
    rw [List.mem_singleton.mp hn]
    exact Text.isWord_of_isIdentifier (by decide)
  have hself : ∀ q ∈ ["Order"], importName q = q := by decide
  obtain ⟨hnamespaces, hexports⟩ := Binds.ofPackage (p := p)
    (by rw [hreferences]; exact fun q hq => (hself q hq).symm ▸ hword q hq)
    (by rw [hexported]; exact hword)
  have himported : "Order" ∈ namespaces (declarationLines p) := by
    rw [hnamespaces, hreferences]
    decide
  have hexport : "Order" ∈ exports (declarationLines p) := by
    rw [hexports, Package.mem_bound, hexported]
    decide
  exact ⟨ordering_identified order_fits.1 order_fits.2 (by decide), r, p,
    hr, hp, himported, hexport, fun h => h.apart "Order" himported hexport⟩

end Sample

end BridgeBindings
