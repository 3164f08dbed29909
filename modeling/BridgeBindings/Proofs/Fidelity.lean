import BridgeBindings.Proofs.Confinement
import BridgeBindings.Proofs.Guided
import BridgeBindings.Proofs.Inheritance
import BridgeBindings.Proofs.Orders

/-!
# Structs with the fields of their classes

The invariant of faithful structs is carried through every level of a
resolution. The one step that counts is the look at a base: its struct has
its fields unless the base is being resolved, and then the base leads back
to the class. All other steps either leave structs alone or add a field of
the class itself.
-/

namespace BridgeBindings

open Syntax

/-- The answer to a class is the struct that is registered under its key, and it
has its fields or is about to get them if it is the struct of the class. -/
def AnswersStruct (c : ProgramClass) (st : Struct) (s : Store) : Prop :=
  ∃ st', s.get? c.key = some st' ∧ st'.fields = st.fields ∧
    (st'.module = c.module → s.IsResolved c.key ∨ c.key ∈ s.classes)

/-- An expansion that keeps structs faithful, if it is led to
what it expands. -/
structure Expansion.Faithful (expand : Expansion) (t : Symbols)
    (own : ProgramClass → Prop) (n : Nat) : Prop where
  cls : ∀ c, t.Declares c →
    Keeps (keeping t own n) AnyStop (LedTo t (.cls c)) (expand.cls c)
      (AnswersStruct c)
  aliased : ∀ site scope name value, t.DeclaresAlias scope name value →
    Keeps (keeping t own n) AnyStop
      (fun s => isCall value = false → LedTo t (.expr scope value) s)
      (expand.aliased site scope name value) fun _ _ => True

section Level

variable {t : Symbols} {own : ProgramClass → Prop} {n : Nat}
    {expand : Expansion} {s : Store}

theorem changeDraft_keeps {P : Store → Prop} {package : String}
    {f : Draft → Draft} (hgrows : ∀ d, Draft.Grows d (f d))
    (hget : ∀ d n, Draft.get? (f d) n = d.get? n)
    (hres : ∀ d, (f d).resolved = d.resolved) :
    Keeps (keeping t own n) AnyStop P (Resolve.changeDraft package f) fun _ _ =>
      True := by
  intro s hs _
  have htends : Keeps (tending t AnyClass n) AnyStop Always
      (Resolve.changeDraft package f) fun _ _ => True :=
        changeDraft_tends hgrows hget hres
  obtain ⟨hleads, hholds, -⟩ := htends s hs.1 trivial
  have halike : s.Alike (s.setDraft package (f (s.draft package))) :=
    alike_setDraft (hget _) (hres _)
  exact ⟨hleads, ⟨hholds, hs.2.alike halike.structs halike.resolved⟩, trivial⟩

theorem guides_keeping : Guides t (keeping t own n) (LedTo t) :=
  ⟨fun _ _ _ => stable_ledTo, fun hl h => h.lead hl, changeDraft_keeps⟩

theorem Expansion.Faithful.guided (h : expand.Faithful t own n) :
    expand.Guided t (keeping t own n) (LedTo t) :=
  ⟨fun c hc => (h.cls c hc).post fun _ _ _ _ => trivial, h.aliased⟩

variable (hk : t.Keyed) (h : expand.Faithful t own n)

include hk h

theorem annotation_faithful (site : Site) (hs : t.Has site.scope) (e : Expr) :
    Keeps (keeping t own n) AnyStop (LedTo t (.expr site.scope e))
      (annotationWith t expand site e) fun _ _ => True :=
  annotation_guided guides_keeping h.guided hk site hs e

/-! ## The fields of a class -/

omit h in
/-- A base that has been answered has its fields, as it does not lead back
to the class. -/
theorem base_listed {c b : ProgramClass} (hc : t.Declares c)
    (hb : b ∈ t.bases c) (hstraight : t.Straight c)
    (hnames : ∀ d, t.Inherits c d → own d) (hs : Faithful t own s)
    (hown : s.Respects own) (hled : LedTo t (.cls c) s) {st : Struct}
    (hanswer : AnswersStruct b st s) : t.Lists b (fieldNames st.fields) := by
  obtain ⟨st', hst', hfields, hsettled⟩ := hanswer
  have hdeclared := Symbols.declares_bases hk hc hb
  have hownBase : own b := hnames b (.single hb)
  rcases hsettled (hown b hownBase st' hst') with hres | hmem
  · obtain ⟨st'', hst'', hlists⟩ := hs hown b hdeclared (hstraight.base hb)
      (fun d hd => hnames d (.head hb hd)) hres
    rw [hst'] at hst''
    cases hst''
    rwa [hfields] at hlists
  · obtain ⟨d, hd, hkey, ⟨st'', hst'', hmodule⟩, hreach⟩ := hled b.key hmem
    have hsame : d = b := by
      refine hd.unique hdeclared ?_ (congrArg StructKey.name hkey)
      rw [hkey, hst'] at hst''
      cases hst''
      rw [← hmodule, hown b hownBase st' hst']
    rw [hsame] at hreach
    exact absurd hreach (hstraight c .refl b hb)

/-- What is known of the fields when some bases of a class have
been looked at. -/
structure Gathered (t : Symbols) (done : List ProgramClass)
    (fields : Table StructField) : Prop where
  listed : ∀ b ∈ done, ∃ names, t.Lists b names
  keys : ∀ names : ProgramClass → List String,
    (∀ b ∈ done, t.Lists b (names b)) → fields.keys = gather
      [] (done.flatMap names)

omit hk h in
theorem Gathered.base {done : List ProgramClass} {fields : Table StructField}
    (hg : Gathered t done fields) (hnamed : Named fields)
    {b : ProgramClass} {st : Struct} (hb : t.Lists b (fieldNames st.fields)) :
    Gathered t (done ++ [b]) (inheritFields fields st.fields) := by
  refine ⟨fun d hd => ?_, fun names hnames => ?_⟩
  · rcases List.mem_append.mp hd with hd | hd
    · exact hg.listed d hd
    · rw [List.mem_singleton.mp hd]
      exact ⟨_, hb⟩
  · have hlast : names b = fieldNames st.fields :=
      (hnames b (List.mem_append_right _ (List.mem_singleton_self b))).unique hb
    rw [(hnamed.inherit st.fields).2, hg.keys names fun d hd =>
      hnames d (List.mem_append_left _ hd), List.flatMap_append,
        List.flatMap_singleton, gather_append, hlast]

/-- What holds when some bases of a class have been looked at. -/
structure Inheriting (t : Symbols) (own : ProgramClass → Prop)
    (c : ProgramClass) (done : List ProgramClass) (fields : Table StructField)
    (s : Store) : Prop where
  led : LedTo t (.cls c) s
  named : Named fields
  gathered : t.Straight c → (∀ d, t.Inherits c d → own d) → s.Respects own →
      Gathered t done fields

/-- The fields of the bases. -/
theorem baseFields_faithful {c : ProgramClass} (hc : t.Declares c) :
    Keeps (keeping t own n) AnyStop (LedTo t (.cls c))
      (baseFields expand (t.bases c)) (Inheriting t own c (t.bases c)) := by
  have hstep : ∀ done b, b ∈ t.bases c →
      ∀ fields, Keeps (keeping t own n) AnyStop (Inheriting t own c done fields)
        (do return inheritFields fields (← expand.cls b).fields)
      (Inheriting t own c (done ++ [b])) := by
    intro done b hb fields s hs hp
    have hbase := h.cls b (Symbols.declares_bases hk hc hb)
    obtain ⟨hleads, hholds, hends⟩ := hbase s hs (hp.led.lead (.base hb))
    have hkept := preserves_of_grows hleads.1 hleads.2
    rw [run_bind]
    rcases hr : expand.cls b s with ⟨e | st, s'⟩ <;>
      rw [hr] at hleads hholds hends hkept
    · exact ⟨hleads, hholds, trivial⟩
    · refine ⟨hleads, hholds, hp.led.later hkept,
        (hp.named.inherit st.fields).1, fun hstraight hnames hown => ?_⟩
      exact (hp.gathered hstraight hnames (hown.earlier hkept)).base hp.named
        (base_listed hk hc hb hstraight hnames hholds.2 hown
          (hp.led.later hkept) hends)
  refine (Keeps.foldlM_done (J := Inheriting t own c) hstep [] .empty).pre
    fun s _ hled => ?_
  exact ⟨hled, fun e he => absurd he List.not_mem_nil, fun _ _ _ =>
    ⟨fun b hb => absurd hb List.not_mem_nil, fun _ _ => rfl⟩⟩

/-- What holds when some fields of the class itself have been added to those
of its bases. -/
structure Declaring (t : Symbols) (own : ProgramClass → Prop) (c : ProgramClass)
    (inherited : Table StructField) (done : List FieldDecl)
    (fields : Table StructField) (s : Store) : Prop where
  led : LedTo t (.cls c) s
  named : Named fields
  keys : fields.keys = gather inherited.keys (done.map (·.name))
  gathered : t.Straight c → (∀ d, t.Inherits c d → own d) → s.Respects own →
    Gathered t (t.bases c) inherited

theorem ownField_faithful {c : ProgramClass} (hc : t.Declares c)
    (inherited : Table StructField) (done : List FieldDecl) {f : FieldDecl}
    (hf : f ∈ c.decl.fields) (fields : Table StructField) :
    Keeps (keeping t own n) AnyStop (Declaring t own c inherited done fields)
      (do return fields.insert f.name (← ownField t expand c f))
      (Declaring t own c inherited (done ++ [f])) := by
  intro s hs hp
  have hfield :=
    annotation_faithful hk h ⟨c.scope, c.package, c.fieldLabel f⟩ hc.inTree
    f.typeExpr
  obtain ⟨hleads, hholds, -⟩ := hfield s hs (hp.led.lead (.field hf))
  have hkept := preserves_of_grows hleads.1 hleads.2
  unfold ownField
  rw [run_bind, run_bind]
  rcases hr : annotationWith t expand ⟨c.scope, c.package, c.fieldLabel f⟩
    f.typeExpr s with
    ⟨e | type, s'⟩ <;> rw [hr] at hleads hholds hkept
  · exact ⟨hleads, hholds, trivial⟩
  · have hinsert :=
      hp.named.insert ⟨f.name, type, c.scope.source.notes.assignmentDoc f.span⟩
    refine ⟨hleads, hholds, hp.led.later hkept, hinsert, ?_,
      fun hstraight hnames hown =>
      hp.gathered hstraight hnames (hown.earlier hkept)⟩
    rw [Table.keys_insert, List.map_append, gather_append, hp.keys]
    rfl

omit hk h in
theorem Declaring.lists {c : ProgramClass}
    {inherited fields : Table StructField} {s : Store}
    (h : Declaring t own c inherited c.decl.fields fields s)
    (hstraight : t.Straight c) (hnames : ∀ d, t.Inherits c d → own d)
    (hown : s.Respects own) : t.Lists c (fieldNames fields.values) := by
  obtain ⟨hlisted, hinherited⟩ := h.gathered hstraight hnames hown
  choose! names hlists using hlisted
  rw [h.named.values, h.keys, hinherited names hlists, ← gather_append,
    gather_eq List.nodup_nil, List.nil_append]
  exact .of hlists

/-- The fields of a class are those that it has by the text. -/
theorem collectFields_faithful {c : ProgramClass} (hc : t.Declares c) :
    Keeps (keeping t own n) AnyStop (LedTo t (.cls c))
      (collectFields t expand c) fun fields s => t.Straight c →
      (∀ d, t.Inherits c d → own d) → s.Respects own →
        t.Lists c (fieldNames fields) := by
  refine (baseFields_faithful hk h hc).bind fun inherited => ?_
  have hown := Keeps.foldlM_done (J := Declaring t own c inherited)
    (fun done f hf fields => ownField_faithful hk h hc inherited done hf fields)
    [] inherited
  refine (hown.pre fun s _ hp => ⟨hp.led, hp.named, rfl, hp.gathered⟩).bind
    fun fields => ?_
  exact Keeps.pure fun s _ hp hstraight hnames hown =>
    hp.lists hstraight hnames hown

/-! ## Classes and aliases -/

omit hk h in
theorem Faithful.registered (hcoherent : Coherent t AnyClass s)
    (hs : Faithful t own s) (c : ProgramClass) :
    Faithful t own (s.registered c) := by
  have hgrows : s.Preserves (s.registered c) :=
    preserves_of_grows (Store.Grows.registered s c)
      (freezes_registered hcoherent c)
  intro hown d hd hstraight hnames hres
  have hres' : s.IsResolved d.key := by
    unfold Store.IsResolved at hres ⊢
    rwa [Store.resolved_registered] at hres
  obtain ⟨st, hst, hlists⟩ :=
    hs (hown.earlier hgrows) d hd hstraight hnames hres'
  exact ⟨st, (hgrows.resolved d.key hres').2.trans hst, hlists⟩

omit hk h in
/-- An open class owns its struct. -/
theorem owns_entering {s : Store} {c : ProgramClass} (hopen : ¬s.Closes c) :
    Store.Owns ((s.registered c).entering c.key) c := by
  refine ⟨s.structOf c, get?_registered_self s c, ?_⟩
  by_contra hne
  exact hopen (.inl hne)

omit hk h in
/-- A class that is entered leads to itself, and so does all
that leads to it. -/
theorem LedTo.entering (hcoherent : Coherent t AnyClass s) {c : ProgramClass}
    (hc : t.Declares c) (hopen : ¬s.Closes c) (hled : LedTo t (.cls c) s) :
    LedTo t (.cls c) ((s.registered c).entering c.key) := by
  have hgrows : s.Preserves (s.registered c) :=
    preserves_of_grows (Store.Grows.registered s c)
      (freezes_registered hcoherent c)
  intro k hmem
  rcases List.mem_cons.mp hmem with rfl | hmem
  · exact ⟨c, hc, rfl, owns_entering hopen, .refl⟩
  · exact (hled.later hgrows) k hmem

omit hk h in
/-- A class that gets the fields that it has by the text. -/
theorem Faithful.finishing {c : ProgramClass} (hc : t.Declares c)
    {fields : List StructField} (hs : Faithful t own s) (howns : s.Owns c)
    (hfields : t.Straight c → (∀ d, t.Inherits c d → own d) → s.Respects own →
      t.Lists c (fieldNames fields)) : Faithful t own
      (s.finishing c fields) := by
  obtain ⟨st, hst, hmodule⟩ := howns
  have hget := Store.get?_finishing hst fields
  have hresolved := Store.isResolved_finishing hst fields
  intro hown d hd hstraight hnames hres
  have hown' : s.Respects own := by
    intro d' hd' st' hst'
    by_cases hkey : d'.key = c.key
    · rw [hkey, hst] at hst'
      cases hst'
      exact hown d' hd' { st with fields := fields } (by rw [hget, if_pos hkey])
    · exact hown d' hd' st' (by rw [hget, if_neg hkey, hst'])
  by_cases hkey : d.key = c.key
  · have hsame : d = c := by
      have hmodule' : st.module = d.module := by
        refine hown' d (hnames d .refl) st ?_
        rw [hkey]
        exact hst
      exact hd.unique hc (hmodule'.symm.trans hmodule)
        (congrArg StructKey.name hkey)
    subst hsame
    exact ⟨_, by rw [hget, if_pos rfl], hfields hstraight hnames hown'⟩
  · have hres' : s.IsResolved d.key :=
      ((hresolved d.key).mp hres).resolve_left hkey
    obtain ⟨st', hst', hlists⟩ := hs hown' d hd hstraight hnames hres'
    exact ⟨st', by rw [hget, if_neg hkey, hst'], hlists⟩

theorem resolveClass_faithful {c : ProgramClass} (hc : t.Declares c) :
    Keeps (keeping t own (n + 1)) AnyStop (LedTo t (.cls c))
      (resolveClass t expand c) (AnswersStruct c) := by
  rintro s ⟨hs, hfaithful⟩ hled
  obtain ⟨hclosed, hopened⟩ := resolveClass_steps (t := t) (s := s) expand c
  by_cases hcloses : s.Closes c
  · rw [hclosed hcloses]
    have hfree := (t.free_registered s c).trans_lt hs.1
    refine ⟨⟨.registered s c, freezes_registered hs.2 c⟩,
      ⟨⟨hfree, hs.2.register hc (.inl trivial)⟩, hfaithful.registered hs.2 c⟩,
      s.structOf c, get?_registered_self s c, rfl, settled_registered hcloses⟩
  · rw [hopened hcloses]
    have hentered : (keeping t own n).holds ((s.registered c).entering c.key) :=
      ⟨entering_tends hc hcloses hs,
        (hfaithful.registered hs.2 c).alike (fun _ => rfl) fun _ => rfl⟩
    obtain ⟨hl, ⟨⟨-, hs'⟩, hfaithful'⟩, hends⟩ :=
      collectFields_faithful hk h hc _ hentered (hled.entering hs.2 hc hcloses)
    have hleave := entered_tends (n := n) hc hcloses hs.2 hl hs'
    have hroom : ∀ {after : Store}, s.Grows after → t.free after < n + 1 :=
      fun hg => (t.free_congr hg.classes hg.aliases).trans_lt hs.1
    rcases hr : collectFields t expand c ((s.registered c).entering c.key)
      with ⟨e | fields, s'⟩ <;> rw [hr] at hl hs' hends hfaithful' hleave
    · obtain ⟨hlead, hcoherent⟩ := hleave.1 trivial
      exact ⟨hlead,
        ⟨⟨hroom hlead.1, hcoherent⟩,
          hfaithful'.alike (fun _ => rfl) fun _ => rfl⟩,
        trivial⟩
    · obtain ⟨hlead, hcoherent, hresolved⟩ := hleave.2 fields
      obtain ⟨st, hst, hmodule⟩ :=
        (owns_entering hcloses).later (preserves_of_grows hl.1 hl.2)
      refine ⟨hlead,
        ⟨⟨hroom hlead.1, hcoherent⟩, hfaithful'.finishing hc
          ⟨st, hst, hmodule⟩ hends⟩,
        { st with fields := fields }, ?_, rfl, fun _ => .inl hresolved⟩
      exact (Store.get?_finishing hst fields c.key).trans (if_pos rfl)

theorem expandAlias_faithful (site : Site) {scope : Scope}
    {name : String} {value : Expr} (ha : t.DeclaresAlias scope name value) :
    Keeps (keeping t own (n + 1)) AnyStop
      (fun s => isCall value = false → LedTo t (.expr scope value) s)
      (expandAlias t expand site scope name value) fun _ _ => True := by
  intro s hs hled
  rw [expandAlias_run]
  split
  · exact ⟨(keeping t own (n + 1)).refl s, hs, trivial⟩
  · next hguard =>
      rw [not_or] at hguard
      refine Keeps.within (C := keeping t own (n + 1))
        (P := fun s => LedTo t (.expr scope value) s ∧
          scope.module ++ "." ++ name ∉ s.aliases)
        (·.expanding (scope.module ++ "." ++ name))
        (·.expanded (scope.module ++ "." ++ name))
        (annotation_faithful hk h { site with scope := scope } ha.inTree value)
        (fun s hs hp => ⟨⟨⟨?_, hs.1.2.alike (alike_of_drafts rfl rfl)⟩,
          hs.2.alike (fun _ => rfl) fun _ => rfl⟩, hp.1⟩)
        (fun s s' hs _ hl hs' => ?_) s hs
        ⟨hled (Bool.eq_false_iff.mpr hguard.1), hguard.2⟩
      · exact Nat.lt_of_lt_of_le (free_expanding ha hp.2)
          (Nat.lt_succ_iff.mp hs.1.1)
      · have hgrows : s.Grows (s'.expanded (scope.module ++ "." ++ name)) :=
          .expanded hl.1
        exact ⟨⟨hgrows, hl.2⟩,
          ⟨⟨(t.free_congr hgrows.classes hgrows.aliases).trans_lt hs.1.1,
          hs'.1.2.alike (alike_of_drafts rfl rfl)⟩,
          hs'.2.alike (fun _ => rfl) fun _ => rfl⟩, fun _ _ => trivial⟩

end Level

/-! ## Runs -/

theorem levels_faithful {t : Symbols} (hk : t.Keyed)
    (own : ProgramClass → Prop) (n : Nat) :
    Expansion.Faithful ⟨classAt t n, aliasAt t n⟩ t own n := by
  induction n with
  | zero =>
      exact ⟨fun _ _ => Keeps.throw trivial, fun _ _ _ _ _ =>
        Keeps.throw trivial⟩
  | succ n ih =>
      rw [levels_succ]
      refine ⟨fun c hc => ?_, fun site scope name value ha => ?_⟩
      · exact resolveClass_faithful hk ih hc
      · exact expandAlias_faithful hk ih site ha

theorem ledTo_of_idle {t : Symbols} {s : Store} (h : s.classes = [])
    (item : Item) : LedTo t item s := by
  intro k hk
  rw [h] at hk
  exact absurd hk List.not_mem_nil

/-- A call that comes while nothing is being resolved. -/
theorem serve_faithful {t : Symbols} (hk : t.Keyed)
    (own : ProgramClass → Prop) {q : Request} (hq : q.InTree t) :
    Keeps (keeping t own t.levels) AnyStop (fun s => s.classes = [])
    (t.serve q) fun _ _ => True := by
  have hall := (levels_faithful hk own t.levels).guided
  exact (serve_guided guides_keeping hall hk hq).pre fun _ _ h item =>
    ledTo_of_idle h item

theorem faithful_of_reached {p : Program} {s : Store}
    (own : ProgramClass → Prop) (h : Reached p s) (hidle : s.classes = []) :
    Faithful (Symbols.ofProgram p) own s := by
  have hk := Symbols.keyed_ofProgram p
  induction h with
  | start log =>
      intro _ c _ _ _ hres
      obtain ⟨root, hdraft⟩ :=
        draft_ofPackages p.packages.keys p.rootPackage log c.key.package
      unfold Store.IsResolved at hres
      rw [hdraft] at hres
      exact absurd hres List.not_mem_nil
  | @listed s c before declared ih =>
      rw [register_run] at hidle ⊢
      rw [(s.registered_marks c).1] at hidle
      exact (ih hidle).registered (sane_of_reached before).coherent c
  | @served s q before inTree ih =>
      have hsane := sane_of_reached before
      rw [(serve_concludes hk hsane inTree).1.classes] at hidle
      exact (serve_faithful hk own inTree s ⟨hsane.tends, ih hidle⟩ hidle).2.1.2
  | inClass => exact absurd hidle (List.cons_ne_nil _ _)
  | inAlias name before ih => exact (ih hidle).alike (fun _ => rfl) fun _ => rfl

/-- A struct that has its fields has those of its class, in their order,
whatever calls have led there, if no base in the hierarchy leads back and every
class in it has its name. -/
theorem fields_faithful (p : Program) {s : Store} (hs : Reached p s)
    (hidle : s.classes = []) {c : ProgramClass}
    (hc : (Symbols.ofProgram p).Declares c)
    (hstraight : (Symbols.ofProgram p).Straight c)
    (hnames : ∀ d, (Symbols.ofProgram p).Inherits c d → s.Owns d)
    (hres : s.IsResolved c.key) : ∃ st, s.get? c.key = some st ∧
    (Symbols.ofProgram p).Lists c (fieldNames st.fields) :=
  faithful_of_reached s.Owns hs hidle s.respects_owns c hc hstraight hnames hres

namespace Sample

def entryCls : ClassDef := cls "Entry" [] [field "label" (name "str")]

def linkCls : ClassDef :=
  cls "Link" ["Entry"]
    [field "next" (quoted "Link"), field "label" (name "int")]

def chainSource : Source := source "main" "main" [.cls entryCls, .cls linkCls]

/-- A class that mentions itself, but not to its base. -/
def linked : Program := program [chainSource]

def entry : ProgramClass := ⟨.ofSource chainSource, entryCls⟩

def link : ProgramClass := ⟨.ofSource chainSource, linkCls⟩

theorem bases_link : (Symbols.ofProgram linked).bases link = [entry] := by
  rw [linked, symbols_source]
  rfl

theorem bases_entry : (Symbols.ofProgram linked).bases entry = [] := by
  rw [linked, symbols_source]
  rfl

theorem inherits_link {d : ProgramClass}
    (h : (Symbols.ofProgram linked).Inherits link d) :
    d = link ∨ d = entry := by
  induction h with
  | refl => exact .inl rfl
  | tail _ hb ih =>
      rcases ih with rfl | rfl
      · rw [bases_link] at hb
        exact .inr (List.mem_singleton.mp hb)
      · rw [bases_entry] at hb
        exact absurd hb List.not_mem_nil

/-- The base leads to its one annotation, and that is a type of the language. -/
theorem straight_link : (Symbols.ofProgram linked).Straight link := by
  intro d hd b hb hreach
  rcases inherits_link hd with rfl | rfl
  · rw [bases_link] at hb
    obtain rfl := List.mem_singleton.mp hb
    have hbuiltin : builtinName entry.scope "str" ≠ none := by
      decide +kernel
    have hends : ∀ item, (Symbols.ofProgram linked).Reaches (.cls entry) item →
        item = .cls entry ∨ item = .expr entry.scope (name "str") := by
      intro item h
      induction h with
      | refl => exact .inl rfl
      | tail _ hstep ih =>
          rcases ih with rfl | rfl
          · cases hstep with
            | base isBase => rw [bases_entry] at isBase; cases isBase
            | field declared =>
                cases List.mem_singleton.mp declared; exact .inr rfl
          · cases hstep with
            | named mentioned =>
                exact absurd (mentions_name mentioned).2 hbuiltin
            | aliased mentioned =>
                exact absurd (mentions_name mentioned).2 hbuiltin
    rcases hends _ hreach with h | h
    · injection h with h
      injection h with _ h
      exact absurd (congrArg ClassDef.name h) (by decide)
    · cases h
  · rw [bases_entry] at hb
    cases hb

/-- The store after the call for a class that is made first. -/
def settledStore (p : Program) (c : ProgramClass) : Store :=
  ((Symbols.ofProgram p).serve (.resolve c) (.ofPackages ["main"] "main")).2

theorem reached_settledStore {p : Program}
    (hpackages : p.packages.keys = ["main"]) (hroot : p.rootPackage = "main")
    {c : ProgramClass} (hc : (Symbols.ofProgram p).Declares c) :
    Reached p (settledStore p c) ∧ (settledStore p c).classes = [] := by
  have hstart : Reached p (.ofPackages ["main"] "main") := by
    have h := Reached.start (p := p) []
    rwa [hpackages, hroot] at h
  have hk := Symbols.keyed_ofProgram p
  have hq : (Request.resolve c).InTree (Symbols.ofProgram p) := hc
  exact ⟨hstart.served hq,
    (serve_concludes hk (sane_of_reached hstart) hq).1.classes⟩

theorem owns_of_module {s : Store} {c : ProgramClass}
    (h : (s.get? c.key).map (·.module) = some c.module) : s.Owns c := by
  obtain ⟨st, hst, hmodule⟩ := Option.map_eq_some_iff.mp h
  exact ⟨st, hst, hmodule⟩

theorem declares_link : (Symbols.ofProgram linked).Declares link :=
  ⟨has_source _, rfl⟩

set_option maxRecDepth 10000 in
/-- The field of the base comes first, although the class declares it again. -/
theorem linked_fields :
    ∃ s, Reached linked s ∧ s.classes = [] ∧ s.IsResolved link.key ∧
    (∀ d, (Symbols.ofProgram linked).Inherits link d → s.Owns d) ∧
      ∃ st, s.get? link.key = some st ∧ (Symbols.ofProgram linked).Lists link
      (fieldNames st.fields) := by
  obtain ⟨hreached, hidle⟩ :=
    reached_settledStore (p := linked) rfl rfl declares_link
  have hres : (settledStore linked link).IsResolved link.key := by
    unfold Store.IsResolved
    decide +kernel
  have howns : ∀ d, (Symbols.ofProgram linked).Inherits link d →
      (settledStore linked link).Owns d := by
    intro d hd
    rcases inherits_link hd with rfl | rfl
    · exact owns_of_module (by decide +kernel)
    · exact owns_of_module (by decide +kernel)
  exact ⟨_, hreached, hidle, hres, howns,
    fields_faithful linked hreached hidle declares_link
      straight_link howns hres⟩

def ahead : ProgramClass := ⟨.ofSource twistedSource, aheadCls⟩

def behind : ProgramClass := ⟨.ofSource twistedSource, behindCls⟩

theorem bases_behind : (Symbols.ofProgram twisted).bases behind = [ahead] := by
  rw [twisted, symbols_source]
  rfl

theorem bases_ahead : (Symbols.ofProgram twisted).bases ahead = [] := by
  rw [twisted, symbols_source]
  rfl

theorem lists_behind : (Symbols.ofProgram twisted).Lists behind ["b", "x"] := by
  have hahead : (Symbols.ofProgram twisted).Lists ahead ["b"] := by
    have h := @Symbols.Lists.of (Symbols.ofProgram twisted) ahead
      (fun _ => []) fun b hb => by
      rw [bases_ahead] at hb
      cases hb
    rwa [bases_ahead] at h
  have h := @Symbols.Lists.of (Symbols.ofProgram twisted) behind
    (fun _ => ["b"]) fun b hb => by
    rw [bases_behind] at hb
    rwa [List.mem_singleton.mp hb]
  rwa [bases_behind] at h

set_option maxRecDepth 10000 in
/-- A class that is resolved from inside of its base has its own fields only. -/
theorem twisted_incomplete : ∃ s, Reached twisted s ∧ s.classes = [] ∧
    (Symbols.ofProgram twisted).Declares behind ∧
      (∀ d, (Symbols.ofProgram twisted).Inherits behind d → s.Owns d) ∧
      s.IsResolved behind.key ∧
        (Symbols.ofProgram twisted).Lists behind ["b", "x"] ∧
          ∃ st, s.get? behind.key = some st ∧ fieldNames st.fields = ["x"] := by
  have hahead : (Symbols.ofProgram twisted).Declares ahead :=
    ⟨has_source _, rfl⟩
  have hbehind : (Symbols.ofProgram twisted).Declares behind :=
    ⟨has_source _, rfl⟩
  obtain ⟨hreached, hidle⟩ := reached_settledStore (p := twisted) rfl rfl hahead
  have hres : (settledStore twisted ahead).IsResolved behind.key := by
    unfold Store.IsResolved
    decide +kernel
  have howns : ∀ d, (Symbols.ofProgram twisted).Inherits behind d →
      (settledStore twisted ahead).Owns d := by
    intro d hd
    rcases twisted_classes
      (Symbols.declares_inherited (Symbols.keyed_ofProgram twisted)
      hbehind hd) with rfl | rfl
    · exact owns_of_module (by decide +kernel)
    · exact owns_of_module (by decide +kernel)
  have hfields : ((settledStore twisted ahead).get? behind.key).map
      (fun st => fieldNames st.fields) = some ["x"] := by
    decide +kernel
  obtain ⟨st, hst, hnames⟩ := Option.map_eq_some_iff.mp hfields
  exact ⟨_, hreached, hidle, hbehind, howns, hres, lists_behind,
    st, hst, hnames⟩

end Sample

end BridgeBindings
