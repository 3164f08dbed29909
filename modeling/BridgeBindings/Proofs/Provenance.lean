import BridgeBindings.Proofs.Declared
import BridgeBindings.Proofs.Growth
import BridgeBindings.Proofs.Mentions

/-!
# Where fields come from

Every field of a struct is declared by some class: the struct's own, or one that
it inherits from. The declaring class is where the field's annotation was
resolved, so it is that class's package, and not the package of the struct, that
has recorded a reference for every foreign struct that the field mentions.

The store invariant says this of all fields and the same of all bound methods,
with everything that is mentioned registered. It is kept by every resolution,
also by one that stops.
-/

namespace BridgeBindings

open Syntax

/-! ## The invariant -/

/-- A class and the class that a field of it is declared by: itself, or else one
that declares it for a base. Bases count by their structs, as the resolver takes
their fields from these. -/
inductive Supplies (t : Symbols) (name : String) : ProgramClass →
    ProgramClass → Prop where
  | own {c : ProgramClass} (declared : t.Declares c)
      (h : ∃ f ∈ c.decl.fields, f.name = name) : Supplies t name c c
  | inherited {c base b d : ProgramClass} (declared : t.Declares c)
      (undeclared : ∀ f ∈ c.decl.fields, f.name ≠ name)
      (isBase : base ∈ t.bases c) (sameStruct : b.key = base.key)
      (rest : Supplies t name b d) : Supplies t name c d

theorem Supplies.supplier {t : Symbols} {name : String} {c d : ProgramClass}
    (h : Supplies t name c d) : t.Declares d := by
  induction h with
  | own declared => exact declared
  | inherited _ _ _ _ _ ih => exact ih

/-- A store has a struct of this key. -/
def Registered (k : StructKey) (s : Store) : Prop := ∃ st, s.get? k = some st

/-- A struct that declarations of a package may mention. -/
def Imported (owner : String) (k : StructKey) (s : Store) : Prop :=
  Registered k s ∧ (k.package = owner ∨ k.package ∈ (s.draft owner).references)

/-- A field of a class's struct was resolved for the package of the class that
declares it. -/
def Sourced (t : Symbols) (k : StructKey) (f : StructField) (s : Store) :
    Prop :=
  ∃ c d, c.key = k ∧ Supplies t f.name c d ∧
    Refers (Imported d.package) f.type.structRefs s

/-- The structs that the signature of a method mentions. -/
def BoundMethod.structRefs (m : BoundMethod) : List StructKey :=
  m.params.flatMap (·.type.structRefs) ++ m.result.toList.flatMap (·.structRefs)

/-- A store that resolutions have filled and that is not classified yet. -/
structure WellFormed (t : Symbols) (s : Store) : Prop where
  named : ∀ p, (s.draft p).name = p
  once : ∀ p, (s.draft p).structs.keys.Nodup
  keyed : ∀ k st, s.get? k = some st → st.package = k.package ∧ st.name = k.name
  sourced : ∀ k st, s.get? k = some st → ∀ f ∈ st.fields, Sourced t k f s
  methods : ∀ p, ∀ m ∈ (s.draft p).methods.values,
      Refers (Imported p) m.structRefs s
  unused : ∀ p, (s.draft p).usedAsData = []

/-- Resolving keeps the invariant and only adds to the store. -/
def sound (t : Symbols) : Contract where
  holds := WellFormed t
  leads := Store.Grows
  refl := Store.Grows.refl
  trans := Store.Grows.trans

/-- No condition on how a reading stops. -/
abbrev AnyStop : Stop → Prop := fun _ => True

section Stable

variable {t : Symbols}

theorem Registered.adds {k : StructKey} {s s' : Store} (ha : s.Adds s')
    (h : Registered k s) : Registered k s' := by
  obtain ⟨st, hst⟩ := h
  obtain ⟨st', hst', -, -⟩ := (ha k.package).structs k.name st hst
  exact ⟨st', hst'⟩

theorem Imported.adds {owner : String} {k : StructKey} {s s' : Store}
    (ha : s.Adds s') (h : Imported owner k s) : Imported owner k s' :=
  ⟨h.1.adds ha, h.2.imp_right ((ha owner).references _)⟩

theorem Sourced.adds {k : StructKey} {f : StructField} {s s' : Store}
    (ha : s.Adds s') (h : Sourced t k f s) : Sourced t k f s' := by
  obtain ⟨c, d, hk, hd, hr⟩ := h
  exact ⟨c, d, hk, hd, fun r hr' => (hr r hr').adds ha⟩

theorem stable_imported (owner : String) (k : StructKey) :
    (sound t).Stable (Imported owner k) :=
  fun hg h => h.adds hg.drafts

/-- Only the drafts matter. -/
theorem WellFormed.of_drafts {s s' : Store} (h : WellFormed t s)
    (hd : s'.drafts = s.drafts) : WellFormed t s' := by
  cases s
  cases s'
  cases hd
  exact ⟨h.named, h.once, h.keyed, h.sourced, h.methods, h.unused⟩

/-- A draft that has grown into one whose structs are in order. -/
theorem WellFormed.setDraft {s : Store} {p : String} {d : Draft}
    (h : WellFormed t s) (hg : (s.draft p).Grows d)
    (hkeyed : ∀ n st, d.get? n = some st → st.package = p ∧ st.name = n)
    (hsourced : ∀ n st, d.get? n = some st →
      ∀ f ∈ st.fields, Sourced t ⟨p, n⟩ f s) :
    WellFormed t (s.setDraft p d) := by
  have hgrows : s.Adds (s.setDraft p d) := (Store.Grows.setDraft hg).drafts
  refine ⟨fun q => ?_, fun q => (hgrows q).once (h.once q), fun k st hk => ?_,
    fun k st hk f hf => ?_, fun q m hm => ?_, fun q => ?_⟩
  · rw [(hgrows q).name]
    exact h.named q
  · rw [Store.get?_setDraft] at hk
    split at hk
    · next hq =>
        rw [hq]
        exact hkeyed k.name st hk
    · exact h.keyed k st hk
  · rw [Store.get?_setDraft] at hk
    split at hk
    · next hq =>
        have := hsourced k.name st hk f hf
        rw [← hq] at this
        exact this.adds hgrows
    · exact (h.sourced k st hk f hf).adds hgrows
  · rw [(hgrows q).methods] at hm
    exact fun r hr => (h.methods q m hm r hr).adds hgrows
  · rw [(hgrows q).used]
    exact h.unused q

/-- A change of a draft that touches no struct. -/
theorem WellFormed.change {s : Store} {p : String} {d : Draft}
    (h : WellFormed t s) (hg : (s.draft p).Grows d)
    (hsame : ∀ n, d.get? n = (s.draft p).get? n) :
    WellFormed t (s.setDraft p d) := by
  refine h.setDraft hg (fun n st hn => ?_) fun n st hn => ?_
  · rw [hsame] at hn
    exact h.keyed ⟨p, n⟩ st hn
  · rw [hsame] at hn
    exact h.sourced ⟨p, n⟩ st hn

end Stable

/-! ## References -/

/-- The struct of a class, as far as it is known when the class has
been expanded. -/
structure StructOf (t : Symbols) (c : ProgramClass) (st : Struct) (s : Store) :
    Prop where
  package : st.package = c.package
  name : st.name = c.name
  registered : Registered c.key s
  sourced : ∀ f ∈ st.fields, Sourced t c.key f s

/-- An expansion that keeps the invariant. -/
structure Expansion.Sound (expand : Expansion) (t : Symbols) : Prop where
  cls : ∀ c, t.Declares c →
    Keeps (sound t) AnyStop Always (expand.cls c) (StructOf t c)
  aliased : ∀ site scope name value, t.DeclaresAlias scope name value →
    Keeps (sound t) AnyStop Always (expand.aliased site scope name value)
      fun type s => Refers (Imported site.owner) type.structRefs s

/-- What the members of an enum carry is a primitive, or nothing
in particular. -/
theorem enumTypeWithin_flat {t : Symbols} {depth : Nat} {c : ProgramClass}
    {type : TypeRef} (h : t.enumTypeWithin depth c = some type) :
    type = .any ∨ ∃ p, type = .primitive p := by
  cases depth with
  | zero => cases h
  | succ depth =>
      rw [Symbols.enumTypeWithin] at h
      unfold EnumTraits.type? at h
      split at h
      · split at h
        · next p _ =>
            cases h
            exact .inr ⟨p, rfl⟩
        · cases h
          unfold commonKind
          split
          · next p _ _ =>
              split
              · exact .inr ⟨p, rfl⟩
              · exact .inl rfl
          · exact .inl rfl
      · cases h

theorem structRefs_enumTypeWithin {t : Symbols} {depth : Nat} {c : ProgramClass}
    {type : TypeRef} (h : t.enumTypeWithin depth c = some type) :
    type.structRefs = [] := by
  rcases enumTypeWithin_flat h with rfl | ⟨p, rfl⟩ <;> rfl

section Resolving

variable {t : Symbols} {expand : Expansion}

theorem addReference_sound (owner : String) (k : StructKey) :
    Keeps (sound t) AnyStop (Registered k)
      (Resolve.changeDraft owner (·.addReference k.package))
      fun _ s => Imported owner k s := by
  refine Keeps.modify fun s hs hk => ?_
  have hg := Draft.grows_addReference (s.draft owner) k.package
  have hgrows : s.Grows (s.setDraft owner _) := .setDraft hg
  refine ⟨hgrows, hs.change hg (Draft.get?_addReference _ _),
    hk.adds hgrows.drafts, ?_⟩
  by_cases hp : k.package = owner
  · exact .inl hp
  · refine .inr ?_
    rw [Store.draft_setDraft, if_pos rfl]
    refine Draft.mem_addReference _ ?_
    rw [hs.named]
    exact hp

theorem addUnresolved_sound {P : Store → Prop} (owner name : String) :
    Keeps (sound t) AnyStop P (Resolve.changeDraft owner (·.addUnresolved name))
      fun _ _ => True := by
  refine Keeps.modify fun s hs _ => ?_
  have hg := Draft.grows_addUnresolved (s.draft owner) name
  exact ⟨.setDraft hg, hs.change hg fun _ => rfl, trivial⟩

theorem structRef_key (h : expand.Sound t) (owner : String) {c : ProgramClass}
    (hc : t.Declares c) :
    Keeps (sound t) AnyStop Always (structRef expand owner c)
      fun type s => type = .struct c.key ∧ Imported owner c.key s := by
  refine (h.cls c hc).bind fun st => ?_
  refine (((addReference_sound owner c.key).carry
    (p := fun _ => st.package = c.package ∧ st.name = c.name) fun _ h => h).pre
      fun s _ hst => ⟨hst.registered, hst.package, hst.name⟩).bind
    fun _ => Keeps.pure fun s _ hs => ⟨?_, hs.1⟩
  rw [hs.2.1, hs.2.2]
  rfl

theorem structRef_sound (h : expand.Sound t) (owner : String) {c : ProgramClass}
    (hc : t.Declares c) :
    Keeps (sound t) AnyStop Always (structRef expand owner c)
      fun type s => Refers (Imported owner) type.structRefs s := by
  refine (structRef_key h owner hc).post fun type s _ hs k hk => ?_
  rw [hs.1] at hk
  cases List.mem_singleton.mp hk
  exact hs.2

theorem refers_nil {R : StructKey → Store → Prop} {keys : List StructKey}
    (h : keys = []) (s : Store) : Refers R keys s := by
  rw [h]
  exact fun k hk => absurd hk List.not_mem_nil

theorem namedType_sound (hk : t.Keyed) (h : expand.Sound t) {site : Site}
    (hs : t.Has site.scope) (row : Nat) (dotted : String) :
    Keeps (sound t) AnyStop Always (namedType t expand site row dotted)
      fun type s => Refers (Imported site.owner) type.structRefs s := by
  unfold namedType
  split
  · exact Keeps.throw trivial
  · exact (addUnresolved_sound _ _).bind fun _ => Keeps.pure fun s _ _ =>
      refers_nil rfl s
  · next hl => exact h.aliased _ _ _ _ (Symbols.owns_lookup hk hs hl)
  · next hl =>
      split
      · next type htype =>
          exact Keeps.pure fun s _ _ =>
            refers_nil (structRefs_enumTypeWithin htype) s
      · exact structRef_sound h _ (Symbols.owns_lookup hk hs hl)
  · exact Keeps.throw trivial

theorem annotation_sound (hk : t.Keyed) (h : expand.Sound t) (site : Site)
    (hs : t.Has site.scope) (e : Expr) :
    Keeps (sound t) AnyStop Always (annotationWith t expand site e)
      fun type s => Refers (Imported site.owner) type.structRefs s := by
  refine (annotation_keeps (R := Imported site.owner) (V := fun _ _ => True)
    (stable_imported site.owner) (fun _ _ _ _ h => h) (fun _ _ _ => trivial)
    fun dotted _ row => ?_).post fun _ _ _ h => h.2.1
  exact (namedType_sound hk h hs row dotted).post fun _ _ _ h =>
    ⟨trivial, h, trivial⟩

/-! ## The fields of a class -/

/-- A field that one of the bases of a class hands on. -/
def FromBase (t : Symbols) (c : ProgramClass) (f : StructField) (s : Store) :
    Prop :=
  ∃ b ∈ t.bases c, Sourced t b.key f s

/-- A field that a class declares, as it was resolved. -/
def OwnField (c : ProgramClass) (f : StructField) (s : Store) : Prop :=
  (∃ g ∈ c.decl.fields, g.name = f.name) ∧
    Refers (Imported c.package) f.type.structRefs s

/-- The fields that are known when some of a class's own have been read. -/
structure Collected (t : Symbols) (c : ProgramClass) (done : List FieldDecl)
    (fields : Table StructField) (s : Store) : Prop where
  once : fields.keys.Nodup
  named : ∀ n f, fields.get? n = some f → f.name = n
  origin : ∀ n f, fields.get? n = some f →
    OwnField c f s ∨ (∀ g ∈ done, g.name ≠ n) ∧ FromBase t c f s

theorem FromBase.adds {c : ProgramClass} {f : StructField} {s s' : Store}
    (ha : s.Adds s') (h : FromBase t c f s) : FromBase t c f s' := by
  obtain ⟨b, hb, h⟩ := h
  exact ⟨b, hb, h.adds ha⟩

theorem OwnField.adds {c : ProgramClass} {f : StructField} {s s' : Store}
    (ha : s.Adds s') (h : OwnField c f s) : OwnField c f s' :=
  ⟨h.1, fun k hk => (h.2 k hk).adds ha⟩

theorem stable_collected (c : ProgramClass) (done : List FieldDecl)
    (fields : Table StructField) :
    (sound t).Stable (Collected t c done fields) := fun hg h =>
  ⟨h.once, h.named, fun n f hf =>
    (h.origin n f hf).imp (·.adds hg.drafts) fun h => ⟨h.1, h.2.adds hg.drafts⟩⟩

theorem nodup_inheritFields {fields : Table StructField} (h : fields.keys.Nodup)
    (inherited : List StructField) :
    (inheritFields fields inherited).keys.Nodup := by
  unfold inheritFields
  induction inherited generalizing fields with
  | nil => exact h
  | cons f inherited ih => exact ih (Table.nodup_insertNew h _ _)

theorem get?_inheritFields {fields : Table StructField}
    {inherited : List StructField} {n : String} {f : StructField}
    (h : (inheritFields fields inherited).get? n = some f) :
    fields.get? n = some f ∨ f ∈ inherited ∧ f.name = n := by
  unfold inheritFields at h
  induction inherited generalizing fields with
  | nil => exact .inl h
  | cons g inherited ih =>
      rcases ih h with h | ⟨h, hn⟩
      · rw [Table.get?_insertNew] at h
        split at h
        · next hn =>
            cases hg : fields.get? g.name with
            | some f' =>
                rw [hg] at h
                cases h
                rw [hn]
                exact .inl hg
            | none =>
                rw [hg] at h
                cases h
                exact .inr ⟨List.mem_cons_self, hn.symm⟩
        · exact .inl h
      · exact .inr ⟨List.mem_cons_of_mem g h, hn⟩

theorem baseFields_sound (hk : t.Keyed) (h : expand.Sound t) {c : ProgramClass}
    (hc : t.Declares c) :
    Keeps (sound t) AnyStop Always (baseFields expand (t.bases c))
    (Collected t c []) := by
  have hempty : ∀ s, Collected t c [] .empty s := fun s =>
    { once := Table.nodup_empty
      named := fun n f hf => by cases hf
      origin := fun n f hf => by cases hf }
  refine (Keeps.foldlM (J := Collected t c []) (fun fields b hb => ?_) _).pre
    fun s _ _ => hempty s
  refine (((h.cls b (Symbols.declares_bases hk hc hb)).carry
    (stable_collected c [] fields)).pre fun _ _ h =>
    ⟨trivial, h⟩).bind fun st => Keeps.pure fun s _ hs => ?_
  obtain ⟨hst, hfields⟩ := hs
  refine ⟨nodup_inheritFields hfields.once _,
    fun n f hf => ?_, fun n f hf => ?_⟩
  · rcases get?_inheritFields hf with hf | ⟨-, hn⟩
    · exact hfields.named n f hf
    · exact hn
  · rcases get?_inheritFields hf with hf | ⟨hf, -⟩
    · exact hfields.origin n f hf
    · exact .inr ⟨fun g hg => absurd hg List.not_mem_nil, b, hb,
        hst.sourced f hf⟩

theorem ownField_sound (hk : t.Keyed) (h : expand.Sound t) {c : ProgramClass}
    (hc : t.Declares c) {g : FieldDecl} (hg : g ∈ c.decl.fields) :
    Keeps (sound t) AnyStop Always (ownField t expand c g)
      fun f s => f.name = g.name ∧ OwnField c f s :=
  (annotation_sound hk h _ hc.inTree g.typeExpr).bind fun _ =>
    Keeps.pure fun _ _ hs => ⟨rfl, ⟨g, hg, rfl⟩, hs⟩

theorem collectFields_sound (hk : t.Keyed) (h : expand.Sound t)
    {c : ProgramClass} (hc : t.Declares c) :
    Keeps (sound t) AnyStop Always (collectFields t expand c)
      fun fields s => ∀ f ∈ fields, Sourced t c.key f s := by
  refine (baseFields_sound hk h hc).bind fun inherited => ?_
  -- after each declaration: a field has come from one of those so far, or from
  -- a base and none of them has its name
  refine (Keeps.foldlM_done (J := Collected t c) (fun done g hg fields => ?_)
    [] inherited).bind fun fields => Keeps.pure fun s _ hs f hf => ?_
  · refine (((ownField_sound hk h hc hg).carry
      (stable_collected c done fields)).pre fun _ _ h => ⟨trivial, h⟩).bind
        fun f => Keeps.pure fun s _ hs => ?_
    obtain ⟨⟨hname, hdeclared⟩, hfields⟩ := hs
    refine ⟨Table.nodup_insert hfields.once _ _, fun n f' hf => ?_,
      fun n f' hf => ?_⟩
    · rw [Table.get?_insert] at hf
      split at hf
      · next hn =>
          cases hf
          rw [hname, hn]
      · exact hfields.named n f' hf
    · rw [Table.get?_insert] at hf
      split at hf
      · cases hf
        exact .inl hdeclared
      · next hn =>
          refine (hfields.origin n f' hf).imp_right fun ⟨hdone, hbase⟩ =>
            ⟨fun g' hg' => ?_, hbase⟩
          rcases List.mem_append.mp hg' with hg' | hg'
          · exact hdone g' hg'
          · rw [List.mem_singleton.mp hg']
            exact Ne.symm hn
  · obtain ⟨n, hn⟩ := Table.get?_of_mem_values hs.once hf
    rcases hs.origin n f hn with ⟨hg, hrefs⟩ |
      ⟨hnot, b, hb, c', d, hkey, hd, hrefs⟩
    · exact ⟨c, c, rfl, .own hc hg, hrefs⟩
    · rw [← hs.named n f hn] at hnot
      exact ⟨c, d, rfl, .inherited hc hnot hb hkey hd, hrefs⟩

/-! ## Classes and aliases -/

theorem WellFormed.structOf {s : Store} {c : ProgramClass} {st : Struct}
    (h : WellFormed t s) (hst : s.get? c.key = some st) :
    StructOf t c st s where
  package := (h.keyed _ st hst).1
  name := (h.keyed _ st hst).2
  registered := ⟨st, hst⟩
  sourced := h.sourced _ st hst

theorem WellFormed.register {s : Store} (h : WellFormed t s)
    (c : ProgramClass) : WellFormed t (s.registered c) := by
  refine WellFormed.of_drafts
    (h.setDraft (Draft.grows_register _ c.name c.module c.doc)
    ?_ ?_) (Store.registered_drafts s c)
  all_goals
    intro n st hn
    rw [Draft.get?_register] at hn
    split at hn
  · next he =>
      cases hd : (s.draft c.package).get? c.name with
      | some st' =>
          rw [hd] at hn
          cases hn
          rw [he]
          exact h.keyed c.key st' hd
      | none =>
          rw [hd] at hn
          cases hn
          exact ⟨h.named _, he.symm⟩
  · exact h.keyed ⟨c.package, n⟩ st hn
  · next he =>
      cases hd : (s.draft c.package).get? c.name with
      | some st' =>
          rw [hd] at hn
          cases hn
          rw [he]
          exact h.sourced c.key st' hd
      | none =>
          rw [hd] at hn
          cases hn
          exact fun f hf => absurd hf List.not_mem_nil
  · exact h.sourced ⟨c.package, n⟩ st hn

theorem register_sound (c : ProgramClass) :
    Keeps (sound t) AnyStop Always (Resolve.register c) (StructOf t c) := by
  refine Keeps.run (register_run c) fun s hs _ =>
    ⟨.registered s c, hs.register c, ?_⟩
  refine (hs.register c).structOf ?_
  show ((s.registered c).draft c.package).get? c.name = _
  rw [Store.draft_registered, if_pos rfl, Draft.get?_register, if_pos rfl]
  rfl

theorem note_sound {P : Store → Prop} (r : LogRecord) :
    Keeps (sound t) AnyStop P (Resolve.note r) fun _ _ => True :=
  Keeps.modify fun _ hs _ =>
    ⟨⟨rfl, rfl, fun _ => Draft.Grows.refl _⟩, hs.of_drafts rfl, trivial⟩

theorem complete_sound {c : ProgramClass} (fields : List StructField) :
    Keeps (sound t) AnyStop (fun s => ∀ f ∈ fields, Sourced t c.key f s)
      (Resolve.changeDraft c.package (·.complete c.name fields)) fun _ s =>
        ∀ f ∈ fields, Sourced t c.key f s := by
  refine Keeps.modify fun s hs hf => ?_
  have hg := Draft.grows_complete (s.draft c.package) c.name fields
  have hgrows : s.Grows (s.setDraft c.package _) := .setDraft hg
  refine ⟨hgrows, hs.setDraft hg ?_ ?_, fun f hfield =>
    (hf f hfield).adds hgrows.drafts⟩
  all_goals
    intro n st hn
    rw [Draft.get?_complete] at hn
    split at hn
  · next he =>
      obtain ⟨st', hst', rfl⟩ := Option.map_eq_some_iff.mp hn
      rw [he]
      exact hs.keyed c.key st' hst'
  · exact hs.keyed ⟨c.package, n⟩ st hn
  · next he =>
      obtain ⟨st', hst', rfl⟩ := Option.map_eq_some_iff.mp hn
      rw [he]
      exact hf
  · exact hs.sourced ⟨c.package, n⟩ st hn

theorem withClass_sound {α : Type} {step : Resolve α} {Q : α → Store → Prop}
    (key : StructKey) (hQ : ∀ a s s', s.Adds s' → Q a s → Q a s')
    (h : Keeps (sound t) AnyStop Always step Q) :
    Keeps (sound t) AnyStop Always (Resolve.withClass key step) Q :=
  Keeps.within (·.entering key) (·.leaving key) h
    (fun _ hs _ => ⟨hs.of_drafts rfl, trivial⟩)
    fun _ s' _ _ hg hs' => ⟨.leaving hg, hs'.of_drafts rfl, fun a ha =>
      hQ a s' _ (Store.adds_of_drafts rfl) ha⟩

theorem withAlias_sound {α : Type} {step : Resolve α} {Q : α → Store → Prop}
    (name : String) (hQ : ∀ a s s', s.Adds s' → Q a s → Q a s')
    (h : Keeps (sound t) AnyStop Always step Q) :
    Keeps (sound t) AnyStop Always (Resolve.withAlias name step) Q :=
  Keeps.within (·.expanding name) (·.expanded name) h
    (fun _ hs _ => ⟨hs.of_drafts rfl, trivial⟩)
    fun _ s' _ _ hg hs' => ⟨.expanded hg, hs'.of_drafts rfl, fun a ha =>
      hQ a s' _ (Store.adds_of_drafts rfl) ha⟩

theorem StructOf.adds {c : ProgramClass} {st : Struct} {s s' : Store}
    (ha : s.Adds s') (h : StructOf t c st s) : StructOf t c st s' :=
  ⟨h.package, h.name, h.registered.adds ha, fun f hf =>
    (h.sourced f hf).adds ha⟩

theorem resolveClass_sound (hk : t.Keyed) (h : expand.Sound t)
    {c : ProgramClass} (hc : t.Declares c) :
    Keeps (sound t) AnyStop Always (resolveClass t expand c)
    (StructOf t c) := by
  refine (register_sound c).bind fun st => ?_
  refine (Keeps.get (R := fun _ => StructOf t c st) fun _ _ h => h).bind
    fun s0 => ?_
  refine (Keeps.get (R := fun _ => StructOf t c st) fun _ _ h => h).bind
    fun seen => ?_
  refine .ite (fun _ => Keeps.pure fun _ _ h => h) fun _ => ?_
  have hstable : (sound t).Stable (StructOf t c st) :=
    fun hg h => h.adds hg.drafts
  have hinner : Keeps (sound t) AnyStop Always (do
      let fields ← collectFields t expand c
      Resolve.note (resolvedRecord c.key fields.length)
      Resolve.changeDraft c.package (·.complete c.name fields)
      return { st with fields := fields }) fun st' s =>
        (st'.package = st.package ∧ st'.name = st.name) ∧
          ∀ f ∈ st'.fields, Sourced t c.key f s := by
    refine (collectFields_sound hk h hc).bind fun fields => ?_
    have hlast : (sound t).Stable fun s => ∀ f ∈ fields, Sourced t c.key f s :=
      fun hg h f hf => (h f hf).adds hg.drafts
    refine (((note_sound (P := Always) _).carry hlast).pre fun _ _ h =>
      ⟨trivial, h⟩).bind fun _ => ?_
    refine ((complete_sound fields).pre fun _ _ h => h.2).bind fun _ => ?_
    exact Keeps.pure fun _ _ h => ⟨⟨rfl, rfl⟩, h⟩
  refine (((withClass_sound c.key ?_ hinner).carry hstable).pre fun _ _ h =>
    ⟨trivial, h⟩).post ?_
  · exact fun st' s s' ha hst => ⟨hst.1, fun f hf => (hst.2 f hf).adds ha⟩
  · intro st' s _ hs
    obtain ⟨⟨⟨hpackage, hname⟩, hsourced⟩, hst⟩ := hs
    exact ⟨hpackage.trans hst.package, hname.trans hst.name,
      hst.registered, hsourced⟩

theorem expandAlias_sound (hk : t.Keyed) (h : expand.Sound t) (site : Site)
    {scope : Scope} {name : String} {value : Expr}
    (ha : t.DeclaresAlias scope name value) :
    Keeps (sound t) AnyStop Always (expandAlias t expand site scope name value)
      fun type s => Refers (Imported site.owner) type.structRefs s := by
  refine Keeps.read.bind fun seen =>
    .ite (fun _ => Keeps.pure fun s _ _ => refers_nil rfl s) fun _ => ?_
  refine (withAlias_sound _ ?_
    (annotation_sound hk h { site with scope := scope }
    ha.inTree value)).pre fun _ _ _ => trivial
  exact fun type s s' ha hs k hk => (hs k hk).adds ha

end Resolving

/-! ## All levels -/

theorem levels_sound {t : Symbols} (hk : t.Keyed) (n : Nat) :
    Expansion.Sound ⟨classAt t n, aliasAt t n⟩ t := by
  induction n with
  | zero =>
      exact ⟨fun _ _ => Keeps.throw trivial, fun _ _ _ _ _ =>
        Keeps.throw trivial⟩
  | succ n ih =>
      rw [levels_succ]
      refine ⟨fun c hc => ?_, fun site scope name value ha => ?_⟩
      · exact resolveClass_sound hk ih hc
      · exact expandAlias_sound hk ih site ha

theorem resolve_sound {t : Symbols} (hk : t.Keyed) {c : ProgramClass}
    (hc : t.Declares c) :
    Keeps (sound t) AnyStop Always (t.resolve c) (StructOf t c) :=
  (levels_sound hk _).cls c hc

end BridgeBindings
