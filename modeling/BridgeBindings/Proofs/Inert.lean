import BridgeBindings.Proofs.Imports
import BridgeBindings.Proofs.Script

/-!
# Comments are no code

The files of a package are the files of the same package without its comments,
with the comments between their lines. The stubs have a method's comments in one
block, and nothing in it may close it; the declarations have each line of a
comment behind two slashes, and nothing in it may end the line. Where that is
so, packages that differ in their comments alone give files that a script's
reader cannot tell apart.

Nothing keeps a comment from it: a line may hold the mark that closes a block,
and the lines of a text are not those of a script, which ends a line at the two
separators of Unicode, too.
-/

namespace BridgeBindings

open Render Script

/-! ## Packages without comments -/

/-- The field without its comments. -/
def StructField.bare (f : StructField) : StructField :=
  { f with comments := [] }

/-- The struct without comments, its own and those of its fields. -/
def Struct.bare (s : Struct) : Struct :=
  { s with fields := s.fields.map StructField.bare, comments := [] }

/-- The method without its comments. -/
def BoundMethod.bare (m : BoundMethod) : BoundMethod :=
  { m with comments := [] }

/-- The package without the comments of its structs, fields and methods. -/
def Package.bare (p : Package) : Package :=
  { p with structs := p.structs.map Struct.bare,
           methods := p.methods.map BoundMethod.bare }

namespace Package

theorem bare_dataStructs (p : Package) :
    p.bare.dataStructs = p.dataStructs.map Struct.bare := by
  let le := fun a b : String × Struct => decide (a.1 ≤ b.1)
  have hsort (es : List (String × Struct)) :
      (es.mergeSort le).map (fun e => (e.1, e.2.bare)) =
      (es.map fun e => (e.1, e.2.bare)).mergeSort le :=
        List.map_mergeSort fun _ _ _ _ => rfl
  have hsorted : p.bare.sortedStructs =
      p.sortedStructs.map fun e => (e.1, e.2.bare) :=
    (hsort p.structs.entries).symm
  unfold dataStructs
  rw [hsorted, List.filter_map, List.map_map, List.map_map]
  rfl

theorem bare_services (p : Package) :
    p.bare.services =
    p.services.map fun s => (s.1, s.2.map BoundMethod.bare) := by
  let le := fun a b : BoundMethod => decide (a.name ≤ b.name)
  have hsort (ms : List BoundMethod) : (ms.mergeSort le).map BoundMethod.bare =
      (ms.map BoundMethod.bare).mergeSort le :=
        List.map_mergeSort fun _ _ _ _ => rfl
  have hnames : p.bare.methods.map (·.structName) = p.methods.map
      (·.structName) := by
    rw [bare, List.map_map]
    rfl
  unfold services
  rw [hnames, List.map_map]
  refine List.map_congr_left fun name _ => congrArg (Prod.mk name) ?_
  rw [bare, List.filter_map]
  exact (hsort _).symm

theorem mem_methods_of_service {p : Package} {s : String × List BoundMethod}
    {m : BoundMethod} (hs : s ∈ p.services) (hm : m ∈ s.2) : m ∈ p.methods := by
  obtain ⟨name, -, rfl⟩ := List.mem_map.mp hs
  exact (List.mem_filter.mp (List.mem_mergeSort.mp hm)).1

theorem service_of_mem_methods {p : Package} {m : BoundMethod}
    (hm : m ∈ p.methods) : ∃ s ∈ p.services, m ∈ s.2 := by
  have hname := mem_sortedSet.mpr (List.mem_map.mpr ⟨m, hm, rfl⟩ :
    m.structName ∈ p.methods.map (·.structName))
  refine ⟨_, List.mem_map.mpr ⟨m.structName, hname, rfl⟩,
    List.mem_mergeSort.mpr ?_⟩
  exact List.mem_filter.mpr ⟨hm, decide_eq_true rfl⟩

/-- All comments of a package, shown or not. -/
def allComments (p : Package) : List CodeText :=
  p.structs.values.flatMap Struct.allComments ++ p.methods.flatMap (·.comments)

end Package

/-! ## Files line by line -/

theorem toList_lines (ls : List String) : (lines ls).toList = text ls := by
  induction ls with
  | nil => rfl
  | cons l ls ih =>
      cases ls with
      | nil => simp [lines]
      | cons l' ls =>
          have hcons : lines (l :: l' :: ls) = (l ++ "\n") ++
              lines (l' :: ls) := by
            unfold lines
            rw [List.map_cons, List.map_cons, String.intercalate_cons_cons,
              String.append_empty]
          rw [hcons, String.toList_append, ih, String.toList_append]
          rfl

theorem tokens_lines (ls : List String) : tokens (lines ls) =
    ended (.code []) (text ls) ++ last (after (.code []) (text ls)) := by
  rw [tokens, toList_lines]

/-- A file has the tokens that it has without comments. -/
theorem tokens_commented {ls ls' : List String} (h : Commented ls ls')
    (complete : ∀ l ∈ ls, Complete l) :
    tokens (lines ls') = tokens (lines ls) := by
  obtain ⟨hafter, hended⟩ := h.agree complete
  rw [tokens_lines, tokens_lines, hafter, hended]

/-! ## Comment lines -/

theorem trimEndChars_cons {c : Char} (h : Text.isBlank c = false)
    (cs : List Char) :
    Text.trimEndChars (c :: cs) = c :: Text.trimEndChars cs := by
  rw [Text.trimEndChars, List.foldr_cons, h, Bool.and_false]
  rfl

theorem trimEndChars_isPrefix (cs : List Char) :
    Text.trimEndChars cs <+: cs := by
  induction cs with
  | nil => exact List.prefix_refl []
  | cons c cs ih =>
      unfold Text.trimEndChars at ih ⊢
      rw [List.foldr_cons]
      split
      · exact List.nil_prefix
      · exact List.prefix_cons_inj c |>.mpr ih

theorem mem_trimEndChars_cons {c d : Char} {cs : List Char}
    (h : d ∈ Text.trimEndChars (c :: cs)) :
    d = c ∨ d ∈ Text.trimEndChars cs := by
  rw [Text.trimEndChars, List.foldr_cons] at h
  split at h
  · cases h
  · exact List.mem_cons.mp h

/-- No line of a comment closes the block that it stands in. -/
def Unclosing (comments : List CodeText) : Prop :=
  ∀ c ∈ comments, ¬"*/".toList <:+: c.shown.toList

/-- No line of a comment goes on behind an end of the line; blanks at its end
are left out where it is written. -/
def OneLined (comments : List CodeText) : Prop :=
  ∀ c ∈ comments, ∀ d ∈ (Text.trimEnd c.shown).toList, endsLine d = false

instance (comments : List CodeText) : Decidable (Unclosing comments) :=
  List.decidableBAll _ _

instance (comments : List CodeText) : Decidable (OneLined comments) :=
  have (c : CodeText) :
      Decidable (∀ d ∈ (Text.trimEnd c.shown).toList, endsLine d = false) :=
    List.decidableBAll _ _
  List.decidableBAll _ _

theorem passes_docLine {c : CodeText} (h : ¬"*/".toList <:+: c.shown.toList) :
    Passes .block (("\t" ++ docLine " * " c).toList ++ ['\n']) .block := by
  have hmark : " * ".toList = [' ', '*', ' '] := rfl
  have htab : "\t".toList = ['\t'] := rfl
  have hline : ¬"*/".toList <:+: Text.trimEndChars
      (' ' :: '*' :: ' ' :: c.shown.toList) := by
    intro hs
    have hs := hs.trans
      (trimEndChars_isPrefix (' ' :: '*' :: ' ' :: c.shown.toList)).isInfix
    have hclose : "*/".toList = ['*', '/'] := rfl
    rw [hclose] at h hs
    simp [List.infix_cons_iff, h] at hs
  rw [docLine, String.toList_append, htab, Text.trimEnd,
    String.toList_append, hmark, String.toList_ofList, List.append_assoc]
  exact .cons rfl (passes_block hline).1

/-- The comments of a method as its stub has them. -/
def blockLines (comments : List CodeText) : List String :=
  if comments.isEmpty then []
  else "\t/**" :: comments.map (fun c => "\t" ++ docLine " * " c) ++ ["\t */"]

theorem methodLines_bare (m : BoundMethod) :
    methodLines m = blockLines m.comments ++ methodLines m.bare := rfl

/-- The comments of a method stand in one block, which its last line closes. -/
theorem silent_block {comments : List CodeText} (h : Unclosing comments) :
    Silent (blockLines comments) := by
  have hlines :
      Passes .block
        (text (comments.map fun c => "\t" ++ docLine " * " c)) .block := by
    induction comments with
    | nil => exact .nil _
    | cons c cs ih =>
        exact (passes_docLine (h c List.mem_cons_self)).append
          (ih fun d hd => h d (List.mem_cons_of_mem c hd))
  have hopen : Passes (.code []) ("\t/**".toList ++ ['\n']) .block := ⟨rfl, rfl⟩
  have hclose : Passes .block (text ["\t */"]) (.code []) := ⟨rfl, rfl⟩
  unfold blockLines
  split
  · exact .nil _
  · rw [Silent, List.cons_append, text_cons, text_append]
    exact hopen.append (hlines.append hclose)

/-- The stubs are those of the package without comments, with its comments
between their lines. -/
theorem commented_stubs (p : Package) (h : Unclosing (stubComments p)) :
    Commented (stubLines p.bare) (stubLines p) := by
  have hempty : p.bare.services.isEmpty = p.services.isEmpty := by
    rw [Package.bare_services, List.isEmpty_map]
  unfold stubLines
  rw [hempty, Package.bare_services, List.flatMap_map]
  refine .append (.append (.refl _) (.flatMap fun s hs => ?_)) (.refl _)
  refine .append (.append (.refl _) ?_) (.refl _)
  rw [List.flatMap_map]
  refine .flatMap fun m hm =>
    .comment (silent_block fun c hc => h c ?_) (.refl _)
  exact List.mem_flatMap.mpr ⟨m, Package.mem_methods_of_service hs hm, hc⟩

/-- A line of a comment behind two slashes. -/
theorem passes_remark {c : CodeText}
    (h : ∀ d ∈ (Text.trimEnd c.shown).toList, endsLine d = false) :
    Passes (.code []) ((docLine "// " c).toList ++ ['\n']) (.code []) := by
  have hmark : "// ".toList = ['/', '/', ' '] := rfl
  have hline : ∀ d ∈ Text.trimEndChars (' ' :: c.shown.toList),
      endsLine d = false := by
    intro d hd
    rcases mem_trimEndChars_cons hd with rfl | hd
    · rfl
    · exact h d (by rwa [Text.trimEnd, String.toList_ofList])
  have hdoc : (docLine "// " c).toList = '/' :: '/' :: Text.trimEndChars
      (' ' :: c.shown.toList) := by
    rw [docLine, Text.trimEnd, String.toList_ofList,
      String.toList_append, hmark]
    exact (trimEndChars_cons rfl _).trans (congrArg _ (trimEndChars_cons rfl _))
  rw [hdoc]
  exact .cons rfl (.cons rfl ((passes_line hline).append ⟨rfl, rfl⟩))

theorem silent_remarks {comments : List CodeText} (h : OneLined comments) :
    Silent (comments.map (docLine "// ")) := by
  refine silent_of_lines fun l hl => ?_
  obtain ⟨c, hc, rfl⟩ := List.mem_map.mp hl
  exact passes_remark (h c hc)

theorem silent_indented {comments : List CodeText} (h : OneLined comments) :
    Silent (comments.map fun c => "\t" ++ docLine "// " c) := by
  refine silent_of_lines fun l hl => ?_
  obtain ⟨c, hc, rfl⟩ := List.mem_map.mp hl
  have htab : Passes (.code []) "\t".toList (.code []) := ⟨rfl, rfl⟩
  rw [String.toList_append, List.append_assoc]
  exact htab.append (passes_remark (h c hc))

theorem commented_structLines (package : String) (s : Struct)
    (h : OneLined s.comments) (hfields : ∀ f ∈ s.fields, OneLined f.comments) :
    Commented (structLines package s.bare) (structLines package s) := by
  have hfield : ∀ f ∈ s.fields, Commented (fieldLines package f.bare)
      (fieldLines package f) :=
    fun f hf => .comment (silent_indented (hfields f hf)) (.refl _)
  unfold structLines
  refine .append (.append (.append ?_ (.refl _)) ?_) (.refl _)
  · have hcomments := Commented.comment (silent_remarks h) .nil
    rw [List.append_nil] at hcomments
    exact .code "" hcomments
  · rw [Struct.bare, List.flatMap_map]
    exact .flatMap hfield

theorem commented_serviceLines (package service : String)
    (methods : List BoundMethod) (h : ∀ m ∈ methods, OneLined m.comments) :
    Commented (serviceLines package service (methods.map BoundMethod.bare))
      (serviceLines package service methods) := by
  unfold serviceLines
  refine .append (.append (.refl _) ?_) (.refl _)
  rw [List.flatMap_map]
  exact .flatMap fun m hm => .comment (silent_indented (h m hm)) (.refl _)

theorem commented_declarations (p : Package)
    (h : OneLined (declarationComments p)) :
    Commented (declarationLines p.bare) (declarationLines p) := by
  have hstruct : ∀ s ∈ p.dataStructs, OneLined s.allComments :=
    fun s hs c hc =>
      h c (List.mem_append_left _ (List.mem_flatMap.mpr ⟨s, hs, hc⟩))
  have hmethod : ∀ m ∈ p.methods, OneLined m.comments :=
    fun m hm c hc =>
      h c (List.mem_append_right _ (List.mem_flatMap.mpr ⟨m, hm, hc⟩))
  unfold declarationLines
  rw [Package.bare_dataStructs, Package.bare_services, List.isEmpty_map,
    List.isEmpty_map, List.flatMap_map, List.flatMap_map]
  refine .append (.append (.append (.refl _) (.flatMap fun s hs => ?_))
    (.flatMap fun s hs => ?_)) (.refl _)
  · exact commented_structLines p.name s
      (fun c hc => hstruct s hs c (List.mem_append_left _ hc))
      fun f hf c hc =>
        hstruct s hs c
          (List.mem_append_right _ (List.mem_flatMap.mpr ⟨f, hf, hc⟩))
  · exact commented_serviceLines p.name s.1 s.2 fun m hm =>
      hmethod m (Package.mem_methods_of_service hs hm)

/-! ## Lines of code -/

theorem plain_importName {package : String} (h : Plain package) :
    Plain (importName package) := by
  intro c hc
  rw [importName, String.toList_ofList] at hc
  obtain ⟨d, hd, rfl⟩ := List.mem_map.mp hc
  split
  · rfl
  · exact h d hd

theorem plain_paramName {name : String} (h : Plain name) :
    Plain (paramName name) := by
  unfold paramName
  split
  · exact plain_append.mpr ⟨h, by decide⟩
  · exact h

theorem plain_typeScript {package : String} {type : TypeRef}
    (h : ∀ k ∈ type.shownRefs, Plain k.package ∧ Plain k.name) :
    Plain (typeScript package type) := by
  induction type with
  | primitive p =>
      rw [typeScript]
      cases p <;> decide
  | struct key =>
      obtain ⟨hpackage, hname⟩ := h key (List.mem_singleton.mpr rfl)
      rw [typeScript]
      split
      · exact hname
      · exact plain_append.mpr
          ⟨plain_append.mpr ⟨plain_importName hpackage, by decide⟩, hname⟩
  | external name =>
      rw [typeScript]
      decide
  | pointer elem ih => exact plain_append.mpr ⟨ih h, by decide⟩
  | sequence elem ih =>
      exact plain_append.mpr ⟨plain_append.mpr ⟨by decide, ih h⟩, by decide⟩
  | mapping key elem _ ih =>
      rw [typeScript]
      refine plain_append.mpr
        ⟨plain_append.mpr ⟨plain_append.mpr ⟨plain_append.mpr
        ⟨by decide, ?_⟩, by decide⟩, ih h⟩, by decide⟩
      split <;> decide
  | any =>
      rw [typeScript]
      decide

/-- The names that the files of a package write have only characters that mean
nothing to the reader of a script. -/
structure Package.Plain (p : Package) : Prop where
  name : Script.Plain p.name
  references : ∀ r ∈ p.references, Script.Plain r
  structs : ∀ s ∈ p.dataStructs, Script.Plain s.name ∧
      ∀ f ∈ s.fields, Script.Plain f.name
  methods : ∀ m ∈ p.methods, Script.Plain m.package ∧
    Script.Plain m.structName ∧ Script.Plain m.name ∧
    ∀ q ∈ m.params, Script.Plain q.name
  shown : ∀ k, p.Shows k → Script.Plain k.package ∧ Script.Plain k.name

theorem tidy_header {package : String} (h : Plain package) :
    Tidy (header package) := by
  have hremark : header package =
      "//" ++ (" Code generated by bindgen from package " ++ package ++
        ". DO NOT EDIT.") := by
    rw [← String.append_assoc, ← String.append_assoc]
    rfl
  rw [hremark]
  exact tidy_remark
    (plain_append.mpr ⟨plain_append.mpr ⟨by decide +kernel, h⟩, by decide⟩)

theorem tidy_importLine {package : String} (h : Plain package) :
    Tidy (importLine package) := by
  obtain ⟨word, hname⟩ := after_plain (plain_importName h) []
  have hbegin : after (.code []) "import type * as ".toList = .code [] := rfl
  have hquote : after (.code word) " from \"../".toList =
      .quoted '"' "\"../".toList := rfl
  obtain ⟨word', hpackage⟩ := after_inside h "\"../".toList
  have hend : after (.quoted '"' word') ("\";".toList ++ ['\n']) = .code [] :=
    rfl
  refine ⟨?_, ?_⟩
  · unfold importLine Complete
    simp only [String.toList_append, List.append_assoc,
      after_append _ _ (_ ++ _), hbegin, hname, hquote, hpackage, hend]
  · exact single_append.mpr
      ⟨single_append.mpr ⟨single_append.mpr ⟨single_append.mpr
      ⟨by decide, (plain_importName h).single⟩, by decide⟩, h.single⟩,
      by decide⟩

theorem tidy_call {name params : String} (hname : Plain name)
    (hparams : Plain params) :
    Tidy ("\t\treturn window.backend.call(\"" ++ name ++ "\", [" ++
      params ++ "]);") := by
  have hcall : after (.code []) "\t\treturn window.backend.call(\"".toList =
      .quoted '"' "\"".toList := rfl
  obtain ⟨word, hafter⟩ := after_inside hname "\"".toList
  have hargs : after (.quoted '"' word) "\", [".toList = .code "[".toList := rfl
  obtain ⟨word', hafter'⟩ := after_plain hparams "[".toList
  have hend : after (.code word') ("]);".toList ++ ['\n']) = .code [] := rfl
  refine ⟨?_, ?_⟩
  · unfold Complete
    simp only [String.toList_append, List.append_assoc]
    rw [after_append, hcall, after_append, hafter, after_append, hargs,
      after_append, hafter', hend]
  · simp only [single_append, hname.single, hparams.single,
      not_false_iff, and_true]
    decide +kernel

theorem plain_params {params : List MethodParam}
    (h : ∀ q ∈ params, Plain q.name) :
    Plain (", ".intercalate (params.map fun q => paramName q.name)) := by
  refine plain_intercalate (by decide) fun s hs => ?_
  obtain ⟨q, hq, rfl⟩ := List.mem_map.mp hs
  exact plain_paramName (h q hq)

namespace Package.Plain

variable {p : Package}

theorem methodLines (hp : p.Plain) {m : BoundMethod} (hm : m ∈ p.methods) :
    ∀ l ∈ Render.methodLines m.bare, Tidy l := by
  obtain ⟨hpackage, hstruct, hname, hparams⟩ := hp.methods m hm
  have hparams := plain_params hparams
  have hqualified : Script.Plain m.qualifiedName := by
    simp only [BoundMethod.qualifiedName, plain_append, hpackage, hstruct,
      hname, true_and, and_true]
    decide
  have hhead : Script.Plain ("\t" ++ m.name ++ "(" ++
      ", ".intercalate (m.params.map fun q => paramName q.name) ++
      ") \x7b") := by
    simp only [plain_append, hname, hparams, and_true]
    decide
  exact List.forall_mem_cons.mpr ⟨tidy_plain hhead, List.forall_mem_cons.mpr
    ⟨tidy_call hqualified hparams,
      List.forall_mem_singleton.mpr (tidy_plain (by decide))⟩⟩

theorem service (hp : p.Plain) {s : String × List BoundMethod}
    (hs : s ∈ p.services) : Script.Plain s.1 := by
  obtain ⟨name, hname, rfl⟩ := List.mem_map.mp hs
  obtain ⟨m, hm, rfl⟩ := List.mem_map.mp (mem_sortedSet.mp hname)
  exact (hp.methods m hm).2.1

/-- Of a package with plain names every line of the stubs is tidy. -/
theorem stubLines (hp : p.Plain) : ∀ l ∈ Render.stubLines p.bare, Tidy l := by
  have hexports : ∀ l ∈ exportsNothing, Tidy l := by decide
  unfold Render.stubLines
  rw [bare_services, List.flatMap_map, List.isEmpty_map]
  simp only [List.forall_mem_append, List.forall_mem_cons]
  refine ⟨⟨⟨tidy_header hp.name, by decide⟩,
    List.forall_mem_flatMap.mpr fun s hs => ?_⟩, ?_⟩
  · have hhead : Script.Plain ("export const " ++ s.1 ++ " = \x7b") := by
      simp only [plain_append, hp.service hs, and_true]
      decide
    rw [List.flatMap_map]
    simp only [List.forall_mem_append, List.forall_mem_cons]
    refine ⟨⟨⟨by decide, tidy_plain hhead, by decide⟩,
      List.forall_mem_flatMap.mpr fun m hm => ?_⟩, by decide⟩
    exact hp.methodLines (mem_methods_of_service hs hm)
  · split
    · exact hexports
    · exact List.forall_mem_nil _

theorem structLines (hp : p.Plain) {s : Struct} (hs : s ∈ p.dataStructs) :
    ∀ l ∈ Render.structLines p.name s.bare, Tidy l := by
  obtain ⟨hname, hfields⟩ := hp.structs s hs
  have hhead : Script.Plain ("export interface " ++ s.name ++ " \x7b") := by
    simp only [plain_append, hname, and_true]
    decide
  have hfield : ∀ f ∈ s.fields, ∀ l ∈ fieldLines p.name f.bare, Tidy l := by
    intro f hf
    have htype : Script.Plain (typeScript p.name f.type) :=
      plain_typeScript fun k hk => hp.shown k (.inl ⟨s, hs, f, hf, hk⟩)
    have hline :
        Script.Plain
          ("\t" ++ f.name ++ ": " ++ typeScript p.name f.type ++ ";") := by
      simp only [plain_append, hfields f hf, htype, and_true]
      decide
    exact List.forall_mem_singleton.mpr (tidy_plain hline)
  unfold Render.structLines Struct.bare
  simp only [List.map_nil, List.forall_mem_append, List.forall_mem_cons,
    List.flatMap_map]
  exact ⟨⟨⟨⟨by decide, by decide⟩, tidy_plain hhead, by decide⟩,
    List.forall_mem_flatMap.mpr hfield⟩, by decide⟩

theorem serviceLines (hp : p.Plain) {s : String × List BoundMethod}
    (hs : s ∈ p.services) :
    ∀ l ∈ Render.serviceLines p.name s.1 (s.2.map BoundMethod.bare),
      Tidy l := by
  have hname := hp.service hs
  have hhead : Script.Plain ("export interface " ++ s.1 ++ " \x7b") := by
    simp only [plain_append, hname, and_true]
    decide
  have hconst :
      Script.Plain ("export declare const " ++ s.1 ++ ": " ++ s.1 ++ ";") := by
    simp only [plain_append, hname, and_true]
    decide
  have hsignature : ∀ m ∈ p.methods,
      Script.Plain ("\t" ++ signature p.name m) := by
    intro m hm
    obtain ⟨-, -, hname, hparams⟩ := hp.methods m hm
    have hparams : Script.Plain (", ".intercalate (m.params.map fun q =>
        paramName q.name ++ ": " ++ typeScript p.name q.type)) := by
      refine plain_intercalate (by decide) fun text htext => ?_
      obtain ⟨q, hq, rfl⟩ := List.mem_map.mp htext
      have htype : Script.Plain (typeScript p.name q.type) :=
        plain_typeScript fun k hk => hp.shown k (.inr ⟨m, hm, .inl ⟨q, hq, hk⟩⟩)
      simp only [plain_append, plain_paramName (hparams q hq), htype,
        and_true, true_and]
      decide
    have hresult : Script.Plain (resultType p.name m.result) := by
      cases hm' : m.result with
      | none => rw [resultType]; decide
      | some type =>
          exact plain_typeScript fun k hk =>
            hp.shown k (.inr ⟨m, hm, .inr ⟨type, hm', hk⟩⟩)
    simp only [signature, plain_append, hname, hparams, hresult, and_true]
    decide
  unfold Render.serviceLines
  rw [List.flatMap_map]
  simp only [List.forall_mem_append, List.forall_mem_cons]
  refine ⟨⟨⟨by decide, tidy_plain hhead, by decide⟩,
    List.forall_mem_flatMap.mpr fun m hm => ?_⟩, by
      decide, by decide, tidy_plain hconst, by decide⟩
  exact List.forall_mem_singleton.mpr
    (tidy_plain (hsignature m (mem_methods_of_service hs hm)))

/-- Of a package with plain names every line of the declarations is tidy. -/
theorem declarationLines (hp : p.Plain) :
    ∀ l ∈ Render.declarationLines p.bare, Tidy l := by
  have hexports : ∀ l ∈ exportsNothing, Tidy l := by decide
  have himports : ∀ l ∈ p.references.map importLine, Tidy l := by
    intro l hl
    obtain ⟨r, hr, rfl⟩ := List.mem_map.mp hl
    exact tidy_importLine (hp.references r hr)
  unfold Render.declarationLines
  rw [bare_dataStructs, bare_services, List.isEmpty_map, List.isEmpty_map,
    List.flatMap_map, List.flatMap_map]
  simp only [List.forall_mem_append, List.forall_mem_cons]
  refine ⟨⟨⟨⟨tidy_header hp.name, himports⟩,
    List.forall_mem_flatMap.mpr fun s hs => ?_⟩,
    List.forall_mem_flatMap.mpr fun s hs => ?_⟩, ?_⟩
  · exact hp.structLines hs
  · exact hp.serviceLines hs
  · split
    · exact hexports
    · exact List.forall_mem_nil _

end Package.Plain

/-! ## Comments are inert -/

/-- Packages that differ in their comments alone give files with the same
tokens, as long as no line of a method's comment closes the block that it stands
in, and no line of a comment holds an end of line. The lines of the code have to
be complete, as they are where names are plain. -/
theorem comments_inert {p p' : Package} (same : p.bare = p'.bare) :
    ((∀ l ∈ stubLines p.bare, Complete l) → Unclosing (stubComments p) →
      Unclosing (stubComments p') → tokens (stubs p) = tokens (stubs p')) ∧
    ((∀ l ∈ declarationLines p.bare, Complete l) →
      OneLined (declarationComments p) → OneLined (declarationComments p') →
        tokens (declarations p) = tokens (declarations p')) := by
  constructor
  · intro complete h h'
    have hp := tokens_commented (commented_stubs p h) complete
    have hp' := tokens_commented (commented_stubs p' h') (same ▸ complete)
    rw [stubs, stubs, hp, hp', same]
  · intro complete h h'
    have hp := tokens_commented (commented_declarations p h) complete
    have hp' := tokens_commented (commented_declarations p' h')
      (same ▸ complete)
    rw [declarations, declarations, hp, hp', same]

namespace Sample

/-- A bound method with this comment. -/
def find (comment : String) : BoundMethod where
  package := "main"
  structName := "Files"
  name := "find"
  params := [⟨"pattern", .primitive .string⟩]
  result := some (.struct ⟨"main", "Hit"⟩)
  comments := [comment]
  isAsync := false

/-- A struct whose only field has this comment. -/
def hit (comment : String) : Struct where
  package := "main"
  module := "main"
  name := "Hit"
  fields := [⟨"path", .primitive .string, [comment]⟩]
  comments := []

/-- A package that shows the one and the other. -/
def finder (method field : String) : Package where
  name := "main"
  isRoot := true
  structs := ⟨[("Hit", hit field)]⟩
  references := []
  unresolved := []
  usedAsData := ["Hit"]
  methods := [find method]

theorem finder_dataStructs (method field : String) :
    (finder method field).dataStructs = [hit field] := by
  unfold Package.dataStructs Package.sortedStructs
  rw [show (finder method field).structs.entries =
    [("Hit", hit field)] from rfl, List.mergeSort_singleton]
  rfl

theorem finder_services (method field : String) :
    (finder method field).services = [("Files", [find method])] := by
  have hnames : sortedSet ((finder method field).methods.map (·.structName)) =
      ["Files"] := by
    unfold sortedSet sortNames
    rw [show (finder method field).methods.map (·.structName) =
      ["Files"] from rfl, List.mergeSort_singleton]
    rfl
  unfold Package.services
  rw [hnames]
  exact congrArg (fun ms => [("Files", ms)]) (List.mergeSort_singleton _)

theorem finder_plain (method field : String) : (finder method field).Plain where
  name := show Script.Plain "main" by decide
  references := List.forall_mem_nil _
  structs := by
    rw [finder_dataStructs]
    exact List.forall_mem_singleton.mpr ⟨show Script.Plain "Hit" by decide,
      List.forall_mem_singleton.mpr (show Script.Plain "path" by decide)⟩
  methods := List.forall_mem_singleton.mpr
    ⟨show Script.Plain "main" by decide, show Script.Plain "Files" by decide,
      show Script.Plain "find" by
        decide, List.forall_mem_singleton.mpr (by decide)⟩
  shown := by
    rintro k (⟨s, hs, f, hf, hk⟩ | ⟨m, hm, ⟨q, hq, hk⟩ | ⟨type, htype, hk⟩⟩)
    · rw [finder_dataStructs] at hs
      cases List.mem_singleton.mp hs
      cases List.mem_singleton.mp hf
      cases hk
    · cases List.mem_singleton.mp hm
      cases List.mem_singleton.mp hq
      cases hk
    · cases List.mem_singleton.mp hm
      cases htype
      cases List.mem_singleton.mp hk
      decide

theorem finder_stubComments (method field : String) :
    stubComments (finder method field) = [(method : CodeText)] := rfl

theorem finder_declarationComments (method field : String) :
    declarationComments (finder method field) =
    [(field : CodeText), (method : CodeText)] := by
  unfold declarationComments
  rw [finder_dataStructs]
  rfl

/-- A glob that closes nothing, and a separator that is left out at the
end of its line. -/
theorem finder_inert :
    tokens (stubs (finder "Takes globs such as *.py." "as found\u2028")) =
        tokens (stubs (finder "" "")) ∧
      tokens (declarations
        (finder "Takes globs such as *.py." "as found\u2028")) =
        tokens (declarations (finder "" "")) := by
  have hplain := finder_plain "Takes globs such as *.py." "as found\u2028"
  have hsame : (finder "Takes globs such as *.py." "as found\u2028").bare =
      (finder "" "").bare := rfl
  obtain ⟨hstubs, hdeclarations⟩ := comments_inert hsame
  simp only [finder_stubComments, finder_declarationComments]
    at hstubs hdeclarations
  exact ⟨hstubs (fun l hl => (hplain.stubLines l hl).complete)
    (by decide) (by decide),
    hdeclarations (fun l hl => (hplain.declarationLines l hl).complete)
      (by decide) (by decide)⟩

/-- The glob closes the block, and the separator ends the line; what is behind
them is code. -/
theorem finder_leaks :
    (finder "Takes globs such as src/**/*.py." "as found\u2028below").bare =
    (finder "" "").bare ∧
      (∀ c ∈ (finder "Takes globs such as src/**/*.py."
        "as found\u2028below").allComments ++ (finder "" "").allComments,
        '\n' ∉ c.shown.toList ∧ '\r' ∉ c.shown.toList) ∧
      tokens (stubs
        (finder "Takes globs such as src/**/*.py." "as found\u2028below")) ≠
        tokens (stubs (finder "" "")) ∧
      tokens (declarations
        (finder "Takes globs such as src/**/*.py." "as found\u2028below")) ≠
        tokens (declarations (finder "" "")) := by
  refine ⟨rfl, by decide, ?_, ?_⟩
  · unfold stubs stubLines
    rw [tokens_lines, tokens_lines, finder_services, finder_services]
    decide +kernel
  · unfold declarations declarationLines
    rw [tokens_lines, tokens_lines, finder_services, finder_services,
      finder_dataStructs, finder_dataStructs]
    decide +kernel

end Sample

end BridgeBindings
