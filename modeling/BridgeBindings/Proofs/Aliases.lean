import BridgeBindings.Proofs.Enums
import BridgeBindings.Proofs.Typing

/-!
# Aliases stand for their values

An alias that is being expanded is not entered again. That ends a recursion, but
the mark stays while the classes are resolved that the value mentions, and in
their fields the alias is cut short as well, although nothing recurs there. So
what a field gets depends on the aliases that are being expanded when its class
is resolved, and that is what an invariant has to say about the stores of a run:
every field has the type by the text of its declaration, with some aliases cut
short, and each of these leads to the declaring class.

A field whose annotation is the name of an alias has the type of the alias's
value wherever none of the aliases that the value comes through is among those.
-/

namespace BridgeBindings

open Syntax

/-! ## Fields with the types of their declarations -/

/-- The declaration of a field's name that counts, the last one. -/
def lastNamed (fields : List FieldDecl) (name : String) : Option FieldDecl :=
  fields.reverse.find? fun g => g.name = name

theorem lastNamed_snoc (fields : List FieldDecl) (g : FieldDecl)
    (name : String) : lastNamed (fields ++ [g]) name = if g.name = name
    then some g else lastNamed fields name := by
  unfold lastNamed
  rw [List.reverse_append, List.reverse_singleton, List.singleton_append,
    List.find?_cons]
  by_cases h : g.name = name
  · simp [h]
  · simp [h]

theorem lastNamed_mem {fields : List FieldDecl} {name : String} {g : FieldDecl}
    (h : lastNamed fields name = some g) : g ∈ fields ∧ g.name = name := by
  have hname := List.find?_some h
  exact ⟨List.mem_reverse.mp (List.mem_of_find?_eq_some h),
    of_decide_eq_true hname⟩

theorem lastNamed_none {fields : List FieldDecl} {name : String}
    (h : lastNamed fields name = none) : ∀ g ∈ fields, g.name ≠ name := by
  intro g hg hname
  exact absurd (decide_eq_true hname)
    (List.find?_eq_none.mp h g (List.mem_reverse.mpr hg))

namespace Symbols

/-- An alias whose value leads to an item, known by its mark. -/
def MarkLeads (t : Symbols) (q : String) (item : Item) : Prop :=
  ∃ scope name value, t.DeclaresAlias scope name value ∧
    scope.module ++ "." ++ name = q ∧ isCall value = false ∧
      t.Reaches (.expr scope value) item

/-- The type of a declaration by the text, with some aliases cut short. -/
def Types (t : Symbols) (marks : List String) (d : ProgramClass) (g : FieldDecl)
    (type : TypeRef) : Prop :=
  ∀ levels, t.levels ≤ levels →
    t.typingUnder marks levels d.scope g.typeExpr = some type

/-- A field of a class's struct has the type of its declaration, where only
aliases are cut short that lead to the class that declares it. -/
def TypesField (t : Symbols) (c : ProgramClass) (f : StructField) : Prop :=
  ∃ d g marks, Supplies t f.name c d ∧ lastNamed d.decl.fields f.name = some g ∧
    (∀ q ∈ marks, t.MarkLeads q (.cls d)) ∧ t.Types marks d g f.type

end Symbols

/-- A struct that belongs to a class. -/
structure Symbols.Homes (t : Symbols) (k : StructKey) (c : ProgramClass)
    (st : Struct) : Prop where
  declared : t.Declares c
  key : c.key = k
  module : st.module = c.module

/-- The structs of a store have the types of their declarations, and the
resolved ones have all the fields that their classes declare. -/
structure Typed (t : Symbols) (s : Store) : Prop where
  structs : ∀ k st, s.get? k = some st → ∃ c, t.Homes k c st ∧ ∀ f ∈ st.fields,
    t.TypesField c f
  whole : ∀ k, s.IsResolved k → ∃ c st, s.get? k = some st ∧ t.Homes k c st ∧
    ∀ g ∈ c.decl.fields, ∃ f ∈ st.fields, f.name = g.name

/-- Every alias that is being expanded leads to an item. -/
def MarksLead (t : Symbols) (item : Item) (s : Store) : Prop :=
  ∀ q ∈ s.aliases, t.MarkLeads q item

/-- Resolving keeps the structs typed. -/
def typed (t : Symbols) : Contract where
  holds s := WellFormed t s ∧ Typed t s
  leads := Store.Grows
  refl := Store.Grows.refl
  trans := Store.Grows.trans

section Invariant

variable {t : Symbols} {s s' : Store}

theorem Typed.alike (h : Typed t s) (hstructs : ∀ k, s'.get? k = s.get? k)
    (hresolved : ∀ p, (s'.draft p).resolved = (s.draft p).resolved) :
    Typed t s' := by
  refine ⟨fun k st hk => h.structs k st ((hstructs k).symm.trans hk),
    fun k hk => ?_⟩
  have hres : s.IsResolved k := by
    unfold Store.IsResolved at hk ⊢
    rwa [hresolved] at hk
  obtain ⟨c, st, hst, hrest⟩ := h.whole k hres
  exact ⟨c, st, (hstructs k).trans hst, hrest⟩

theorem Typed.registered (h : Typed t s) {c : ProgramClass}
    (hc : t.Declares c) : Typed t (s.registered c) := by
  have hkept : ∀ k st, s.get? k = some st →
      (s.registered c).get? k = some st := by
    intro k st hst
    rw [Store.get?_registered]
    split
    · next hkey =>
        rw [hkey] at hst
        unfold Store.structOf
        rw [show (s.draft c.package).get? c.name = some st from hst]
        rfl
    · exact hst
  refine ⟨fun k st hk => ?_, fun k hk => ?_⟩
  · rw [Store.get?_registered] at hk
    split at hk
    · next hkey =>
        cases hk
        unfold Store.structOf
        cases hd : (s.draft c.package).get? c.name with
        | some st =>
            rw [Option.getD_some]
            exact h.structs k st (hkey ▸ hd)
        | none =>
            exact ⟨c, ⟨hc, hkey.symm, rfl⟩, fun f hf =>
              absurd hf List.not_mem_nil⟩
    · exact h.structs k st hk
  · have hres : s.IsResolved k := by
      unfold Store.IsResolved at hk ⊢
      rwa [Store.resolved_registered] at hk
    obtain ⟨d, st, hst, hrest⟩ := h.whole k hres
    exact ⟨d, st, hkept k st hst, hrest⟩

/-- A class gets fields that are typed, all of its own among them. -/
theorem Typed.finishing (h : Typed t s) {c : ProgramClass} (hc : t.Declares c)
    {fields : List StructField} (howns : s.Owns c)
    (htyped : ∀ f ∈ fields, t.TypesField c f)
    (hwhole : ∀ g ∈ c.decl.fields, ∃ f ∈ fields, f.name = g.name) :
    Typed t (s.finishing c fields) := by
  obtain ⟨st, hst, hmodule⟩ := howns
  have hget := Store.get?_finishing hst fields
  have hresolved := Store.isResolved_finishing hst fields
  refine ⟨fun k st' hk => ?_, fun k hk => ?_⟩
  · rw [hget] at hk
    split at hk
    · next hkey =>
        cases hk
        exact ⟨c, ⟨hc, hkey.symm, hmodule⟩, htyped⟩
    · exact h.structs k st' hk
  · rcases (hresolved k).mp hk with rfl | hres
    · exact ⟨c, _, (hget _).trans (if_pos rfl), ⟨hc, rfl, hmodule⟩, hwhole⟩
    · by_cases hkey : k = c.key
      · rw [hkey]
        exact ⟨c, _, (hget _).trans (if_pos rfl), ⟨hc, rfl, hmodule⟩, hwhole⟩
      · obtain ⟨d, st', hst', hrest⟩ := h.whole k hres
        exact ⟨d, st', (hget k).trans ((if_neg hkey).trans hst'), hrest⟩

theorem Symbols.MarkLeads.lead {q : String} {a b : Item} (h : t.MarkLeads q a)
    (hl : t.Leads a b) : t.MarkLeads q b := by
  obtain ⟨scope, name, value, hdeclared, hq, hcall, hreach⟩ := h
  exact ⟨scope, name, value, hdeclared, hq, hcall, hreach.tail hl⟩

theorem changeDraft_typed {P : Store → Prop} {p : String} {f : Draft → Draft}
    (hgrows : ∀ d, Draft.Grows d (f d))
    (hget : ∀ d n, Draft.get? (f d) n = d.get? n)
    (hres : ∀ d, (f d).resolved = d.resolved) :
    Keeps (typed t) AnyStop P (Resolve.changeDraft p f) fun _ _ => True := by
  refine Keeps.modify fun s hs _ => ?_
  have halike : s.Alike (s.setDraft p (f (s.draft p))) :=
    alike_setDraft (hget _) (hres _)
  exact ⟨.setDraft (hgrows _), ⟨hs.1.change (hgrows _) (hget _),
    hs.2.alike halike.structs halike.resolved⟩, trivial⟩

theorem guides_typed : Guides t (typed t) (MarksLead t) where
  stable _ := fun hl h q hq => h q (hl.aliases ▸ hq)
  lead hl h q hq := (h q hq).lead hl
  change := changeDraft_typed

end Invariant

/-! ## The fields of a class -/

/-- The answer to a class is a struct with typed fields, be it of this class or
of another one that has its name. -/
def AnswersTyped (t : Symbols) (c : ProgramClass) (st : Struct) : Prop :=
  ∃ d, d.key = c.key ∧ ∀ f ∈ st.fields, t.TypesField d f

/-- The fields that are known when some of a class's own have been read: each
has the type of its last declaration so far, or comes from a base. -/
structure Gained (t : Symbols) (c : ProgramClass) (marks : List String)
    (done : List FieldDecl) (fields : Table StructField) : Prop where
  once : fields.keys.Nodup
  named : ∀ n f, fields.get? n = some f → f.name = n
  own : ∀ g ∈ done, ∃ f, fields.get? g.name = some f
  declared : ∀ n f g, fields.get? n = some f → lastNamed done n = some g →
      t.Types marks c g f.type
  inherited : ∀ n f, fields.get? n = some f → lastNamed done n = none →
    ∃ b ∈ t.bases c, ∃ d, d.key = b.key ∧ t.TypesField d f

namespace Gained

variable {t : Symbols} {c : ProgramClass} {marks : List String}
  {done : List FieldDecl} {fields : Table StructField}

theorem empty : Gained t c marks [] .empty where
  once := Table.nodup_empty
  named n f hf := by cases hf
  own g hg := absurd hg List.not_mem_nil
  declared n f g hf := by cases hf
  inherited n f hf := by cases hf

theorem base (h : Gained t c marks [] fields) {b : ProgramClass}
    (hb : b ∈ t.bases c) {st : Struct} (hst : AnswersTyped t b st) :
    Gained t c marks [] (inheritFields fields st.fields) where
  once := nodup_inheritFields h.once _
  named n f hf := by
    rcases get?_inheritFields hf with hf | ⟨-, hn⟩
    · exact h.named n f hf
    · exact hn
  own g hg := absurd hg List.not_mem_nil
  declared n f g _ hg := by cases hg
  inherited n f hf hnone := by
    obtain ⟨d, hkey, htyped⟩ := hst
    rcases get?_inheritFields hf with hf | ⟨hf, -⟩
    · exact h.inherited n f hf hnone
    · exact ⟨b, hb, d, hkey, htyped f hf⟩

theorem insert (h : Gained t c marks done fields) {g : FieldDecl}
    {f : StructField} (hname : f.name = g.name)
    (htyped : t.Types marks c g f.type) :
    Gained t c marks (done ++ [g]) (fields.insert g.name f) where
  once := Table.nodup_insert h.once _ _
  named n f' hf := by
    rw [Table.get?_insert] at hf
    split at hf
    · next hn =>
        cases hf
        rw [hname, hn]
    · exact h.named n f' hf
  own g' hg' := by
    rw [Table.get?_insert]
    split
    · exact ⟨f, rfl⟩
    · next hne =>
        rcases List.mem_append.mp hg' with hg' | hg'
        · exact h.own g' hg'
        · rw [List.mem_singleton.mp hg'] at hne
          exact absurd rfl hne
  declared n f' g' hf hg' := by
    rw [Table.get?_insert] at hf
    rw [lastNamed_snoc] at hg'
    split at hf
    · next hn =>
        cases hf
        rw [if_pos hn.symm] at hg'
        cases hg'
        exact htyped
    · next hn =>
        rw [if_neg (Ne.symm hn)] at hg'
        exact h.declared n f' g' hf hg'
  inherited n f' hf hnone := by
    rw [Table.get?_insert] at hf
    rw [lastNamed_snoc] at hnone
    split at hf
    · next hn =>
        rw [if_pos hn.symm] at hnone
        cases hnone
    · next hn =>
        rw [if_neg (Ne.symm hn)] at hnone
        exact h.inherited n f' hf hnone

/-- The fields of a class when all of its own have been read. -/
theorem types (h : Gained t c marks c.decl.fields fields) (hc : t.Declares c)
    (hmarks : ∀ q ∈ marks, t.MarkLeads q (.cls c)) :
    ∀ f ∈ fields.values, t.TypesField c f := by
  intro f hf
  obtain ⟨n, hn⟩ := Table.get?_of_mem_values h.once hf
  obtain rfl := h.named n f hn
  cases hlast : lastNamed c.decl.fields f.name with
  | some g =>
      obtain ⟨hg, hname⟩ := lastNamed_mem hlast
      exact ⟨c, g, marks, .own hc ⟨g, hg, hname⟩, hlast, hmarks,
        h.declared _ f g hn hlast⟩
  | none =>
      obtain ⟨b, hb, d, hkey, d', g, marks', hd, hrest⟩ :=
        h.inherited _ f hn hlast
      exact ⟨d', g, marks',
        .inherited hc (lastNamed_none hlast) hb hkey hd, hrest⟩

theorem whole (h : Gained t c marks c.decl.fields fields) :
    ∀ g ∈ c.decl.fields, ∃ f ∈ fields.values, f.name = g.name := by
  intro g hg
  obtain ⟨f, hf⟩ := h.own g hg
  exact ⟨f, Table.mem_values_of_get? hf, h.named _ f hf⟩

end Gained

/-- An expansion that keeps the structs typed, if all that is being expanded
leads to what it expands. -/
structure Expansion.Typed (expand : Expansion) (t : Symbols) : Prop where
  cls : ∀ c, t.Declares c →
    Keeps (typed t) AnyStop (MarksLead t (.cls c)) (expand.cls c)
    fun st _ => AnswersTyped t c st
  aliased : ∀ site scope name value, t.DeclaresAlias scope name value →
    Keeps (typed t) AnyStop
      (fun s => isCall value = false → MarksLead t (.expr scope value) s)
      (expand.aliased site scope name value) fun _ _ => True

section Level

variable {t : Symbols} (hk : t.Keyed) {n : Nat} (hn : n ≤ t.levels)
  (h : Expansion.Typed ⟨classAt t n, aliasAt t n⟩ t)

include h in
theorem Expansion.Typed.guided :
    Expansion.Guided ⟨classAt t n, aliasAt t n⟩ t (typed t) (MarksLead t) :=
  ⟨fun c hc => (h.cls c hc).post fun _ _ _ _ => trivial, h.aliased⟩

/-- What holds while the fields of a class are being read. -/
def LedUnder (t : Symbols) (item : Item) (marks : List String) (s : Store) :
    Prop :=
  MarksLead t item s ∧ s.aliases = marks

theorem stable_ledUnder (item : Item) (marks : List String) :
    (typed t).Stable (LedUnder t item marks) :=
  fun hl h => ⟨guides_typed.stable item hl h.1, hl.aliases.trans h.2⟩

theorem LedUnder.lead {a b : Item} {marks : List String} {s : Store}
    (h : LedUnder t a marks s) (hl : t.Leads a b) : LedUnder t b marks s :=
  ⟨guides_typed.lead hl h.1, h.2⟩

include hk hn h

theorem annotation_typed (site : Site) (hs : t.Has site.scope) (e : Expr)
    (marks : List String) :
    Keeps (typed t) AnyStop (LedUnder t (.expr site.scope e) marks)
      (annotationWith t ⟨classAt t n, aliasAt t n⟩ site e) fun type _ =>
        ∀ levels, t.levels ≤ levels →
          t.typingUnder marks levels site.scope e = some type := by
  intro s hholds hled
  obtain ⟨hl, hh, -⟩ :=
    annotation_guided guides_typed h.guided hk site hs e s hholds hled.1
  refine ⟨hl, hh, ?_⟩
  rcases hr : annotationWith t ⟨classAt t n, aliasAt t n⟩ site e s
    with ⟨_ | type, s'⟩
  · trivial
  · intro levels hlevels
    exact typingUnder_of_answer hk (hn.trans hlevels) hholds.1 hs
      (fun q _ => by rw [hled.2]) hr

omit hn in
theorem baseFields_typed {c : ProgramClass} (hc : t.Declares c)
    (marks : List String) : Keeps (typed t) AnyStop (LedUnder t (.cls c) marks)
      (baseFields ⟨classAt t n, aliasAt t n⟩ (t.bases c))
      fun fields s => LedUnder t (.cls c) marks s ∧
      Gained t c marks [] fields := by
  have hstep : ∀ fields, ∀ b ∈ t.bases c, Keeps (typed t) AnyStop
      (fun s => LedUnder t (.cls c) marks s ∧ Gained t c marks [] fields)
      (do return inheritFields fields (← classAt t n b).fields)
      fun fields s => LedUnder t (.cls c) marks s ∧
      Gained t c marks [] fields := by
    intro fields b hb
    have hbase := (h.cls b (Symbols.declares_bases hk hc hb)).carry
      (p := fun s => LedUnder t (.cls c) marks s ∧ Gained t c marks [] fields)
      fun hl hp => ⟨stable_ledUnder _ _ hl hp.1, hp.2⟩
    refine (hbase.pre fun s _ hp => ⟨(hp.1.lead (.base hb)).1, hp⟩).bind
      fun st => ?_
    exact Keeps.pure fun s _ hp => ⟨hp.2.1, hp.2.2.base hb hp.1⟩
  exact (Keeps.foldlM hstep .empty).pre fun s _ hled => ⟨hled, .empty⟩

theorem ownField_typed {c : ProgramClass} (hc : t.Declares c)
    (marks : List String) (done : List FieldDecl) {g : FieldDecl}
    (hg : g ∈ c.decl.fields) (fields : Table StructField) :
    Keeps (typed t) AnyStop
      (fun s => LedUnder t (.cls c) marks s ∧ Gained t c marks done fields)
      (do
        return fields.insert g.name
          (← ownField t ⟨classAt t n, aliasAt t n⟩ c g))
      fun fields s => LedUnder t (.cls c) marks s ∧ Gained t c marks
      (done ++ [g]) fields := by
  have hread :=
    (annotation_typed hk hn h
      ⟨c.scope, c.package, c.name ++ "." ++ g.name⟩ hc.inTree
    g.typeExpr marks).carry
      (p := fun s => LedUnder t (.cls c) marks s ∧ Gained t c marks done fields)
      fun hl hp => ⟨stable_ledUnder _ _ hl hp.1, hp.2⟩
  unfold ownField
  simp only [bind_assoc, pure_bind]
  refine (hread.pre fun s _ hp => ⟨hp.1.lead (.field hg), hp⟩).bind fun type =>
    ?_
  exact Keeps.pure fun s _ hp => ⟨hp.2.1, hp.2.2.insert rfl hp.1⟩

/-- The fields of a class have the types of their declarations, those of its own
with the aliases cut short that are being expanded meanwhile. -/
theorem collectFields_typed {c : ProgramClass} (hc : t.Declares c)
    (marks : List String) : Keeps (typed t) AnyStop (LedUnder t (.cls c) marks)
      (collectFields t ⟨classAt t n, aliasAt t n⟩ c) fun fields _ =>
        ∃ table, fields = table.values ∧
          Gained t c marks c.decl.fields table := by
  refine (baseFields_typed hk h hc marks).bind fun inherited => ?_
  refine (Keeps.foldlM_done
    (J := fun done fields s => LedUnder t (.cls c) marks s ∧
    Gained t c marks done fields)
      (fun done g hg fields => ownField_typed hk hn h hc marks done hg
      fields) [] inherited).bind fun fields => ?_
  exact Keeps.pure fun s _ hp => ⟨fields, rfl, hp.2⟩

/-! ## Classes and aliases -/

theorem resolveClass_typed {c : ProgramClass} (hc : t.Declares c) :
    Keeps (typed t) AnyStop (MarksLead t (.cls c))
      (resolveClass t ⟨classAt t n, aliasAt t n⟩ c)
      fun st _ => AnswersTyped t c st := by
  rintro s ⟨hs, htyped⟩ hled
  obtain ⟨hgrows, hwell, -⟩ :=
    resolveClass_sound hk (levels_sound hk n) hc s hs trivial
  obtain ⟨hclosed, hopened⟩ :=
    resolveClass_steps (t := t) (s := s) ⟨classAt t n, aliasAt t n⟩ c
  have hregistered := htyped.registered hc
  -- the aliases that are marked here lead to the class, so they are the ones
  -- under which its fields may be read
  by_cases hcloses : s.Closes c
  · rw [hclosed hcloses] at hgrows hwell ⊢
    obtain ⟨d, hd, hfields⟩ :=
      hregistered.structs c.key _ (get?_registered_self s c)
    exact ⟨hgrows, ⟨hwell, hregistered⟩, d, hd.key, hfields⟩
  · rw [hopened hcloses] at hgrows hwell ⊢
    have hentered : (typed t).holds ((s.registered c).entering c.key) :=
      ⟨(hs.register c).of_drafts rfl,
        hregistered.alike (fun _ => rfl) fun _ => rfl⟩
    have hmarks : ((s.registered c).entering c.key).aliases = s.aliases :=
      (s.registered_marks c).2
    obtain ⟨hl, ⟨-, htyped'⟩, hends⟩ :=
      collectFields_typed hk hn h hc s.aliases _ hentered
      ⟨fun q hq => hled q (hmarks ▸ hq), hmarks⟩
    rcases hr : collectFields t ⟨classAt t n, aliasAt t n⟩ c
      ((s.registered c).entering c.key) with
      ⟨e | fields, s'⟩ <;> rw [hr] at hl htyped' hends hgrows hwell
    · exact ⟨hgrows,
        ⟨hwell, htyped'.alike (fun _ => rfl) fun _ => rfl⟩, trivial⟩
    · obtain ⟨table, rfl, hgained⟩ := hends
      obtain ⟨st, hst, hmodule⟩ := owns_entering hcloses
      obtain ⟨st', hst', hsame, -⟩ :=
        (hl.drafts c.package).structs c.name st hst
      have hfields := hgained.types hc hled
      exact ⟨hgrows,
        ⟨hwell, htyped'.finishing hc ⟨st', hst', hsame.trans hmodule⟩ hfields
        hgained.whole⟩, c, rfl, hfields⟩

omit hn in
theorem expandAlias_typed (site : Site) {scope : Scope}
    {name : String} {value : Expr} (ha : t.DeclaresAlias scope name value) :
    Keeps (typed t) AnyStop
      (fun s => isCall value = false → MarksLead t (.expr scope value) s)
      (expandAlias t ⟨classAt t n, aliasAt t n⟩ site scope name value)
      fun _ _ => True := by
  rintro s ⟨hs, htyped⟩ hled
  obtain ⟨hgrows, hwell, -⟩ :=
    expandAlias_sound hk (levels_sound hk n) site ha s hs trivial
  rw [expandAlias_run] at hgrows hwell ⊢
  split
  · exact ⟨(typed t).refl s, ⟨hs, htyped⟩, trivial⟩
  · next hguard =>
      rw [if_neg hguard, withAlias_run] at hgrows hwell
      rw [withAlias_run]
      rw [not_or] at hguard
      have hcall : isCall value = false := Bool.eq_false_iff.mpr hguard.1
      have hinside : MarksLead t (.expr scope value)
          (s.expanding (scope.module ++ "." ++ name)) := by
        intro q hq
        rcases List.mem_cons.mp hq with rfl | hq
        · exact ⟨scope, name, value, ha, rfl, hcall, .refl⟩
        · exact hled hcall q hq
      obtain ⟨-, ⟨-, htyped'⟩, -⟩ := annotation_guided guides_typed h.guided hk
        { site with scope := scope } ha.inTree value
        (s.expanding (scope.module ++ "." ++ name))
        ⟨hs.of_drafts rfl, htyped.alike (fun _ => rfl) fun _ => rfl⟩ hinside
      refine ⟨hgrows, ⟨hwell, htyped'.alike (fun _ => rfl) fun _ => rfl⟩, ?_⟩
      unfold Ends
      split <;> trivial

end Level

/-! ## Runs -/

theorem levels_typed {t : Symbols} (hk : t.Keyed) (n : Nat)
    (hn : n ≤ t.levels) : Expansion.Typed ⟨classAt t n, aliasAt t n⟩ t := by
  induction n with
  | zero =>
      exact ⟨fun _ _ => Keeps.throw trivial, fun _ _ _ _ _ =>
        Keeps.throw trivial⟩
  | succ n ih =>
      have hn' : n ≤ t.levels := Nat.le_of_succ_le hn
      rw [levels_succ]
      refine ⟨fun c hc => ?_, fun site scope name value ha => ?_⟩
      · exact resolveClass_typed hk hn' (ih hn') hc
      · exact expandAlias_typed hk (ih hn') site ha

theorem marksLead_of_idle {t : Symbols} {s : Store} (h : s.aliases = [])
    (item : Item) : MarksLead t item s := by
  intro q hq
  rw [h] at hq
  exact absurd hq List.not_mem_nil

/-- A call that comes while no alias is being expanded. -/
theorem serve_typed {t : Symbols} (hk : t.Keyed) {q : Request}
    (hq : q.InTree t) :
    Keeps (typed t) AnyStop (fun s => s.aliases = []) (t.serve q) fun _ _ =>
      True := by
  have hall := (levels_typed hk t.levels (Nat.le_refl _)).guided
  exact (serve_guided guides_typed hall hk hq).pre fun _ _ h item =>
    marksLead_of_idle h item

theorem typed_of_reached {p : Program} {s : Store} (h : Reached p s)
    (hidle : s.aliases = []) : Typed (Symbols.ofProgram p) s := by
  have hk := Symbols.keyed_ofProgram p
  induction h with
  | start log =>
      have hdraft := draft_ofPackages p.packages.keys p.rootPackage log
      refine ⟨fun k st hst => ?_, fun k hres => ?_⟩
      · obtain ⟨root, h⟩ := hdraft k.package
        unfold Store.get? at hst
        rw [h] at hst
        cases hst
      · obtain ⟨root, h⟩ := hdraft k.package
        unfold Store.IsResolved at hres
        rw [h] at hres
        exact absurd hres List.not_mem_nil
  | @listed s c before declared ih =>
      rw [register_run] at hidle ⊢
      rw [(s.registered_marks c).2] at hidle
      exact (ih hidle).registered declared
  | @served s q before inTree ih =>
      have hsane := sane_of_reached before
      rw [(serve_concludes hk hsane inTree).1.aliases] at hidle
      exact (serve_typed hk inTree s ⟨hsane.wellFormed, ih hidle⟩ hidle).2.1.2
  | @inClass s c before declared isOpen ih =>
      have hmarks : s.aliases = [] := (s.registered_marks c).2.symm.trans hidle
      exact ((ih hmarks).registered declared).alike (fun _ => rfl) fun _ => rfl
  | inAlias => exact absurd hidle (List.cons_ne_nil _ _)

/-! ## Aliases for their values -/

/-- An annotation that is the name of an alias. -/
def Symbols.NamesAlias (t : Symbols) (scope : Scope) (e : Expr) (home : Scope)
    (name : String) (value : Expr) : Prop :=
  ∃ dotted, e.dotted? = some dotted ∧ builtinName scope dotted = none ∧
    t.lookup scope dotted = some (.alias home name value)

section Names

variable {t : Symbols} {scope home : Scope} {e value : Expr} {name : String}

theorem annotation_dotted {expand : Expansion} {site : Site} {dotted : String}
    (he : e.dotted? = some dotted)
    (hown : builtinName site.scope dotted = none) :
    annotationWith t expand site e = namedType t expand site e.row dotted := by
  unfold annotationWith annotationType
  rw [readExpr_dotted _ he hown, ← comp_map]
  exact id_map _

/-- The name of an alias has the type of its value, read with the alias
itself cut short. -/
theorem typingUnder_name (h : t.NamesAlias scope e home name value)
    (hcall : isCall value = false) {marks : List String}
    (hfree : home.module ++ "." ++ name ∉ marks) (levels : Nat) :
    t.typingUnder marks (levels + 1) scope e =
      t.typingUnder ((home.module ++ "." ++ name) :: marks)
        levels home value := by
  obtain ⟨dotted, he, hown, hl⟩ := h
  have hread : annotationWith t (sketch t (levels + 1)) ⟨scope, "", ""⟩ e =
      expandAlias t (sketch t levels) ⟨scope, "", ""⟩ home name value := by
    rw [annotation_dotted he hown]
    unfold namedType
    rw [hl]
    rfl
  unfold Symbols.typingUnder
  rw [hread, expandAlias_run, if_neg (by simp [hcall, hfree]), withAlias_run]
  rfl

/-- A declaration that names an alias, none of whose aliases is cut short. -/
theorem Symbols.Types.of_name (hk : t.Keyed) {d : ProgramClass}
    (hd : t.Declares d) {g : FieldDecl} {marks : List String} {type : TypeRef}
    (htypes : t.Types marks d g type)
    (h : t.NamesAlias d.scope g.typeExpr home name value)
    (hcall : isCall value = false)
    (hends : ¬t.Unfolds home value (home.module ++ "." ++ name))
    (hfree : ∀ q ∈ marks, ¬t.UnfoldsAlias home name value q) :
    t.typing home value = some type := by
  obtain ⟨dotted, -, -, hl⟩ := id h
  have hhome : t.DeclaresAlias home name value :=
    Symbols.owns_lookup hk hd.inTree hl
  have hlast := htypes (t.levels + 1) (Nat.le_succ _)
  rw [typingUnder_name h hcall fun hq => hfree _ hq (.inl rfl)] at hlast
  refine typingUnder_mono hk (Nat.le_refl _) hhome.inTree (fun q hq => ?_) hlast
  refine ⟨fun hmem => ?_, fun hmem => absurd hmem List.not_mem_nil⟩
  rcases List.mem_cons.mp hmem with rfl | hmem
  · exact absurd hq hends
  · exact absurd (.inr ⟨hcall, hq⟩) (hfree q hmem)

end Names

/-- A class that is resolved while no alias is being expanded: none is cut short
in the fields that it declares itself. -/
theorem resolve_gained {t : Symbols} (hk : t.Keyed) {c : ProgramClass}
    (hc : t.Declares c) {s : Store} (hs : (typed t).holds s)
    (hidle : s.aliases = []) (hopen : ¬s.Closes c) {answer : Struct}
    {after : Store} (hr : t.resolve c s = (.ok answer, after)) :
    after.IsResolved c.key ∧
      ∃ st table, after.get? c.key = some st ∧ st.fields = table.values ∧
        Gained t c [] c.decl.fields table := by
  obtain ⟨n, hn, hresolve⟩ := t.resolve_eq_resolveClass
  have hn' : n ≤ t.levels := hn ▸ Nat.le_succ n
  rw [hresolve, (resolveClass_steps _ c).2 hopen] at hr
  have hmarks : ((s.registered c).entering c.key).aliases = [] :=
    (s.registered_marks c).2.trans hidle
  have hentered : (typed t).holds ((s.registered c).entering c.key) :=
    ⟨(hs.1.register c).of_drafts rfl,
      (hs.2.registered hc).alike (fun _ => rfl) fun _ => rfl⟩
  obtain ⟨hl, -, hends⟩ :=
    collectFields_typed hk hn' (levels_typed hk n hn') hc [] _ hentered
    ⟨marksLead_of_idle hmarks _, hmarks⟩
  rcases hcollect : collectFields t ⟨classAt t n, aliasAt t n⟩ c
    ((s.registered c).entering c.key) with ⟨e | fields, inner⟩ <;>
    rw [hcollect] at hr hends hl
  · cases hr
  · cases hr
    obtain ⟨table, rfl, hgained⟩ := hends
    obtain ⟨st, hst, -⟩ := owns_entering hopen
    obtain ⟨st', hst', -⟩ := (hl.drafts c.package).structs c.name st hst
    have hget :=
      (Store.get?_finishing hst' table.values c.key).trans (if_pos rfl)
    have hresolved :=
      (Store.isResolved_finishing hst' table.values c.key).mpr (.inl rfl)
    exact ⟨hresolved, { st' with fields := table.values }, table,
      hget, rfl, hgained⟩

/-- A class whose struct was completed by a call for the class itself, and not
on the way of another resolution. -/
def CompletedAlone (p : Program) (c : ProgramClass) (s : Store) : Prop :=
  ∃ before st after, Reached p before ∧ before.aliases = [] ∧ ¬before.Closes c ∧
    (Symbols.ofProgram p).resolve c before = (.ok st, after) ∧ after.Preserves s

/-- A struct that has its fields has all that its class declares. Each field is
declared by a class of the hierarchy, and if it is written there with the name
of an alias that never comes back to itself, then its type is the one that the
alias's value has when no alias is being expanded, as far as none of the aliases
that the value comes through leads to the declaring class, or that class was not
resolved on the way of another one. -/
theorem alias_transparent (p : Program) {s : Store} (hs : Reached p s)
    (hidle : s.aliases = []) {c : ProgramClass}
    (hc : (Symbols.ofProgram p).Declares c) (howns : s.Owns c)
    (hres : s.IsResolved c.key) :
    ∃ st, s.get? c.key = some st ∧
    (∀ g ∈ c.decl.fields, ∃ f ∈ st.fields, f.name = g.name) ∧
      ∀ f ∈ st.fields, ∃ d g, Supplies (Symbols.ofProgram p) f.name c d ∧
        lastNamed d.decl.fields f.name = some g ∧
          ∀ home name value, (Symbols.ofProgram p).NamesAlias d.scope g.typeExpr
            home name value → isCall value = false →
            ¬(Symbols.ofProgram p).Unfolds home value
              (home.module ++ "." ++ name) →
            (∀ q, (Symbols.ofProgram p).UnfoldsAlias home name value q →
              ¬(Symbols.ofProgram p).MarkLeads q (.cls d)) ∨ d = c ∧
              CompletedAlone p c s →
            ∀ s' site type after, Reached p s' → s'.aliases = [] →
            site.scope = home →
              Symbols.annotation (Symbols.ofProgram p) site value s' =
              (.ok type, after) →
                f.type = type := by
  have hk := Symbols.keyed_ofProgram p
  have htyped := typed_of_reached hs hidle
  obtain ⟨st, hst, hmodule⟩ := howns
  have hsame : ∀ d, (Symbols.ofProgram p).Homes c.key d st →
      d = c := fun d hd =>
    hd.declared.unique hc (hd.module.symm.trans hmodule)
      (congrArg StructKey.name hd.key)
  refine ⟨st, hst, fun g hg => ?_, fun f hf => ?_⟩
  · obtain ⟨d, st', hst', hhome, hwhole⟩ := htyped.whole c.key hres
    rw [hst] at hst'
    cases hst'
    obtain rfl := hsame d hhome
    exact hwhole g hg
  · obtain ⟨c', hhome, hfields⟩ := htyped.structs c.key st hst
    obtain rfl := hsame c' hhome
    obtain ⟨d, g, marks, hsupplies, hlast, hmarks, htypes⟩ := hfields f hf
    refine ⟨d, g, hsupplies, hlast,
      fun home name value hnames hcall hends hbeyond => ?_⟩
    have hd : (Symbols.ofProgram p).Declares d := hsupplies.supplier
    -- when the field was read, the aliases that were marked were not among
    -- those that the value comes through, either by where they lead or because
    -- there were none
    have htext : (Symbols.ofProgram p).typing home value = some f.type := by
      rcases hbeyond with hbeyond | ⟨rfl, halone⟩
      · exact htypes.of_name hk hd hnames hcall hends fun q hq hunfolds =>
          hbeyond q hunfolds (hmarks q hq)
      · obtain ⟨before, _, after, hbefore, hidle', hopen, hr, hkept⟩ := halone
        obtain ⟨hresolved, st', table, hst', hvalues, hgained⟩ :=
          resolve_gained hk hc
            ⟨(sane_of_reached hbefore).wellFormed,
              typed_of_reached hbefore hidle'⟩ hidle' hopen hr
        rw [← (hkept.resolved _ hresolved).2, hst] at hst'
        cases hst'
        obtain ⟨n, hn⟩ := Table.get?_of_mem_values hgained.once (hvalues ▸ hf)
        obtain rfl := hgained.named n f hn
        exact (hgained.declared _ f g hn hlast).of_name hk hd hnames hcall hends
          fun q hq => absurd hq List.not_mem_nil
    -- what any later call answers is the type by the text too
    intro s' site type after hs' hidle' hsite hanswer
    subst hsite
    obtain ⟨dotted, -, -, hl⟩ := hnames
    have hhome' : (Symbols.ofProgram p).Has site.scope :=
      (Symbols.owns_lookup hk hd.inTree hl :
        (Symbols.ofProgram p).DeclaresAlias _ _ _).inTree
    have hvalue : (Symbols.ofProgram p).typing site.scope value = some type :=
      typingUnder_of_answer hk (Nat.le_refl _)
        (sane_of_reached hs').wellFormed hhome'
        (fun q _ => by rw [hidle']) hanswer
    rw [htext] at hvalue
    exact Option.some.inj hvalue

namespace Sample

def nodes : Expr := .subscript start (name "list") (quoted "Node")

def holderCls : ClassDef := cls "Holder" [] [field "items" (name "X")]

def nodeCls : ClassDef := cls "Node" [] [field "children" (name "X")]

def shelfSource : Source :=
  source "main" "main"
    [.assign ⟨start, 1⟩ [name "X"] nodes, .cls holderCls, .cls nodeCls]

def shelfScope : Scope := .ofSource shelfSource

/-- An alias for a list of a class that has such a list itself. -/
def shelf : Program := program [shelfSource]

def holder : ProgramClass := ⟨shelfScope, holderCls⟩

def node : ProgramClass := ⟨shelfScope, nodeCls⟩

theorem shelf_lookup : (Symbols.ofProgram shelf).lookup shelfScope "X" =
      some (.alias shelfScope "X" nodes) ∧
    (Symbols.ofProgram shelf).lookup shelfScope "Node" = some (.cls node) := by
  rw [shelf, symbols_source]
  exact ⟨rfl, rfl⟩

theorem names_nodes :
    (Symbols.ofProgram shelf).NamesAlias shelfScope (name "X")
      shelfScope "X" nodes :=
  ⟨"X", rfl, by decide +kernel, shelf_lookup.1⟩

theorem mentions_nodes {dotted : String}
    (h : Mentions shelfScope nodes dotted) : dotted = "Node" := by
  have hasks : asks shelfScope nodes = [.text "Node"] := by
    decide +kernel
  have hread : (readExpression (Text.trim "Node")).toOption.bind Expr.dotted? =
      some "Node" := by
    decide +kernel
  obtain ⟨e, he, hspelled⟩ := Option.bind_eq_some_iff.mp hread
  cases h with
  | name asked =>
      rw [hasks] at asked
      cases List.mem_singleton.mp asked
  | text asked parsed rest =>
      rw [hasks] at asked
      cases List.mem_singleton.mp asked
      rw [ok_of_toOption he] at parsed
      cases parsed
      exact (mentions_dotted hspelled rest).1

/-- The value mentions a class only. -/
theorem nodes_unfolds {q : String} :
    ¬(Symbols.ofProgram shelf).Unfolds shelfScope nodes q := by
  intro h
  cases h with
  | here mentioned stands =>
      rw [mentions_nodes mentioned, shelf_lookup.2] at stands
      cases stands
  | through mentioned stands =>
      rw [mentions_nodes mentioned, shelf_lookup.2] at stands
      cases stands

/-- What the value leads to: the class and its field, and from there
the value again. -/
def NodesItem (item : Item) : Prop :=
  item = .cls node ∨ item = .expr shelfScope nodes ∨
    item = .expr shelfScope (name "X")

theorem nodesItem_lead {a b : Item} (h : (Symbols.ofProgram shelf).Leads a b)
    (ha : NodesItem a) : NodesItem b := by
  have hbases : (Symbols.ofProgram shelf).bases node = [] := by
    rw [shelf, symbols_source]
    rfl
  rcases ha with rfl | rfl | rfl
  · cases h with
    | base isBase =>
        rw [hbases] at isBase
        cases isBase
    | field declared =>
        cases List.mem_singleton.mp declared
        exact .inr (.inr rfl)
  · cases h with
    | named mentioned stands =>
        rw [mentions_nodes mentioned, shelf_lookup.2] at stands
        cases stands
        exact .inl rfl
    | aliased mentioned stands =>
        rw [mentions_nodes mentioned, shelf_lookup.2] at stands
        cases stands
  · cases h with
    | named mentioned stands =>
        rw [(mentions_name mentioned).1, shelf_lookup.1] at stands
        cases stands
    | aliased mentioned stands =>
        rw [(mentions_name mentioned).1, shelf_lookup.1] at stands
        cases stands
        exact .inr (.inl rfl)

/-- The class that holds a shelf is not on it. -/
theorem nodes_beside (q : String) :
    ¬(Symbols.ofProgram shelf).MarkLeads q (.cls holder) := by
  rintro ⟨scope, id, value, hdeclared, -, -, hreach⟩
  obtain rfl : scope = shelfScope := has_source_only hdeclared.inTree
  have hvalue : (id, value) = ("X", nodes) :=
    List.mem_singleton.mp (Table.get?_mem hdeclared.decl)
  cases hvalue
  have hitem : NodesItem (.cls holder) := by
    generalize Item.cls holder = item at hreach
    induction hreach with
    | refl => exact .inr (.inl rfl)
    | tail _ hl ih => exact nodesItem_lead hl ih
  rcases hitem with h | h | h
  · injection h with h
    injection h with _ h
    exact absurd (congrArg ClassDef.name h) (by decide)
  · cases h
  · cases h

theorem declares_holder : (Symbols.ofProgram shelf).Declares holder :=
  ⟨has_source _, rfl⟩

theorem nodes_answer :
    (Symbols.annotation (Symbols.ofProgram shelf)
      ⟨shelfScope, "main", "X"⟩ nodes
    freshStore).1.toOption = some (.sequence (.struct node.key)) := by
  decide +kernel

def itemsField : FieldDecl := ⟨⟨start, 1⟩, "items", name "X"⟩

set_option maxRecDepth 10000 in
/-- A field that is written with the name of an alias has the type
of its value. -/
theorem shelf_items : ∃ s, Reached shelf s ∧ s.aliases = [] ∧ s.Owns holder ∧
    s.IsResolved holder.key ∧ ∃ st f, s.get? holder.key = some st ∧
    f ∈ st.fields ∧
      f.name = "items" ∧ f.type = .sequence (.struct node.key) := by
  obtain ⟨hreached, -⟩ :=
    reached_settledStore (p := shelf) rfl rfl declares_holder
  have hidle : (settledStore shelf holder).aliases = [] := by
    decide +kernel
  have hres : (settledStore shelf holder).IsResolved holder.key := by
    unfold Store.IsResolved
    decide +kernel
  have howns : (settledStore shelf holder).Owns holder :=
    owns_of_module (by decide +kernel)
  obtain ⟨st, hst, hwhole, hfields⟩ :=
    alias_transparent shelf hreached hidle declares_holder howns hres
  obtain ⟨f, hf, hname⟩ := hwhole itemsField (List.mem_singleton_self _)
  obtain ⟨d, g, hsupplies, hlast, htype⟩ := hfields f hf
  have hname' : f.name = "items" := hname
  rw [hname'] at hsupplies hlast
  have hholder : d = holder := by
    cases hsupplies with
    | own => rfl
    | inherited _ undeclared =>
        exact absurd rfl (undeclared itemsField (List.mem_singleton_self _))
  subst hholder
  obtain rfl : itemsField = g := Option.some.inj hlast
  have hfresh : Reached shelf freshStore := .start []
  have hanswer := run_of_toOption nodes_answer
  exact ⟨_, hreached, hidle, howns, hres, st, f, hst, hf, hname',
    htype shelfScope "X" nodes names_nodes rfl nodes_unfolds
      (.inl fun q _ => nodes_beside q) freshStore ⟨shelfScope, "main", "X"⟩ _ _
      hfresh rfl rfl hanswer⟩

theorem declares_node : (Symbols.ofProgram shelf).Declares node :=
  ⟨has_source _, rfl⟩

set_option maxRecDepth 10000 in
/-- A class that is resolved while the alias is being expanded in which its
field is written. -/
theorem shelf_children :
    ∃ s, Reached shelf s ∧ s.classes = [] ∧ s.aliases = [] ∧
    (Symbols.ofProgram shelf).Declares node ∧ s.Owns node ∧
    s.IsResolved node.key ∧
      (∃ g ∈ node.decl.fields, g.name = "children" ∧
        (Symbols.ofProgram shelf).NamesAlias node.scope g.typeExpr
          shelfScope "X" nodes) ∧
      isCall nodes = false ∧
      ¬(Symbols.ofProgram shelf).Unfolds shelfScope nodes "main.X" ∧
      (∃ after, Symbols.annotation (Symbols.ofProgram shelf)
        ⟨shelfScope, "main", "X"⟩ nodes s =
        (.ok (.sequence (.struct node.key)), after)) ∧
      ∃ st f, s.get? node.key = some st ∧ f ∈ st.fields ∧ f.name = "children" ∧
      f.type = .any := by
  obtain ⟨hreached, hidle⟩ :=
    reached_settledStore (p := shelf) rfl rfl declares_holder
  have hmarks : (settledStore shelf holder).aliases = [] := by
    decide +kernel
  have hres : (settledStore shelf holder).IsResolved node.key := by
    unfold Store.IsResolved
    decide +kernel
  have howns : (settledStore shelf holder).Owns node :=
    owns_of_module (by decide +kernel)
  have hvalue :
      (Symbols.annotation (Symbols.ofProgram shelf)
        ⟨shelfScope, "main", "X"⟩ nodes
      (settledStore shelf holder)).1.toOption =
      some (.sequence (.struct node.key)) := by
    decide +kernel
  have hfield : ((settledStore shelf holder).get? node.key).map (·.fields) =
      some [⟨"children", .any, []⟩] := by
    decide +kernel
  obtain ⟨st, hst, hfields⟩ := Option.map_eq_some_iff.mp hfield
  have hanswer := run_of_toOption hvalue
  refine ⟨_, hreached, hidle, hmarks, declares_node, howns, hres, ?_,
    rfl, nodes_unfolds, ⟨_, hanswer⟩, st, ⟨"children", .any, []⟩,
    hst, ?_, rfl, rfl⟩
  · exact ⟨⟨⟨start, 1⟩, "children", name "X"⟩, List.mem_singleton_self _,
      rfl, names_nodes⟩
  · rw [hfields]
    exact List.mem_singleton_self _

end Sample

end BridgeBindings
