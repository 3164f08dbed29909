import BridgeBindings.Proofs.Mentions
import BridgeBindings.Proofs.Progress
import BridgeBindings.Proofs.Refusals

/-!
# What a resolution completes

A struct that has got its fields needs the structs of its bases and those that
its annotations touch, and a resolution that comes back has seen to these: each
has its fields, or its class was being resolved already. Aliases that are being
expanded are cut out of the annotations in them, so what a struct needs is
counted without these aliases. An alias whose expansion ends makes up for that:
whatever is touched through it, is touched by its value.

The other way round, what a class does not need is left alone. A set of structs
that contains the needs of its members is a territory: resolving a class in it
changes nothing outside.
-/

namespace BridgeBindings

open Syntax

/-! ## Needs -/

/-- What an annotation needs: a struct, or, where it cannot be resolved,
something that there is not. -/
inductive Needed where
  | struct (k : StructKey)
  | impossible

/-- What an annotation leads to, if none of these aliases is expanded. -/
inductive Touches (t : Symbols) (avoid : List String) : Scope →
    Expr → Needed → Prop
  | flawed {scope : Scope} {e : Expr} (unresolvable : t.Unresolvable scope e) :
      Touches t avoid scope e .impossible
  | cls {scope : Scope} {e : Expr} {dotted : String} {c : ProgramClass}
      (mentioned : Mentions scope e dotted)
      (stands : t.lookup scope dotted = some (.cls c))
      (noEnum : t.enumType c = none) : Touches t avoid scope e (.struct c.key)
  | aliased {scope scope' : Scope} {e value : Expr}
      {dotted name : String} {x : Needed} (mentioned : Mentions scope e dotted)
      (stands : t.lookup scope dotted = some (.alias scope' name value))
      (noCall : isCall value = false)
      (free : scope'.module ++ "." ++ name ∉ avoid)
      (rest : Touches t avoid scope' value x) : Touches t avoid scope e x

/-- What one of the names of an annotation leads to. -/
inductive NameTouches (t : Symbols) (avoid : List String) (scope : Scope)
    (dotted : String) : Needed → Prop
  | cls {c : ProgramClass} (stands : t.lookup scope dotted = some (.cls c))
      (noEnum : t.enumType c = none) :
      NameTouches t avoid scope dotted (.struct c.key)
  | aliased {scope' : Scope} {value : Expr} {name : String} {x : Needed}
      (stands : t.lookup scope dotted = some (.alias scope' name value))
      (noCall : isCall value = false)
      (free : scope'.module ++ "." ++ name ∉ avoid)
      (rest : Touches t avoid scope' value x) :
      NameTouches t avoid scope dotted x

section Touches

variable {t : Symbols} {avoid : List String} {scope : Scope}
    {e : Expr} {x : Needed}

theorem NameTouches.touches {dotted : String} (hm : Mentions scope e dotted)
    (h : NameTouches t avoid scope dotted x) : Touches t avoid scope e x := by
  cases h with
  | cls stands noEnum => exact .cls hm stands noEnum
  | aliased stands noCall free rest => exact .aliased hm stands noCall free rest

theorem Touches.name (h : Touches t avoid scope e x)
    (hsound : ¬t.Unresolvable scope e) :
    ∃ dotted, Mentions scope e dotted ∧ NameTouches t avoid scope dotted x := by
  cases h with
  | flawed unresolvable => exact absurd unresolvable hsound
  | cls hm stands noEnum => exact ⟨_, hm, .cls stands noEnum⟩
  | aliased hm stands noCall free rest =>
      exact ⟨_, hm, .aliased stands noCall free rest⟩

theorem Touches.mono {fewer : List String} (h : Touches t avoid scope e x)
    (hf : fewer ⊆ avoid) : Touches t fewer scope e x := by
  induction h with
  | flawed unresolvable => exact .flawed unresolvable
  | cls hm stands noEnum => exact .cls hm stands noEnum
  | aliased hm stands noCall free _ ih =>
      exact .aliased hm stands noCall (fun hmem => free (hf hmem)) ih

/-- On the way through an alias only the part behind its last
expansion matters. -/
theorem Touches.through (hd : t.Distinct) (hk : t.Keyed) {inner : Scope}
    {name : String} {value : Expr} (ha : t.DeclaresAlias inner name value)
    (hs : t.Has scope) (h : Touches t avoid scope e x) :
    Touches t ((inner.module ++ "." ++ name) :: avoid) scope e x ∨
      Touches t ((inner.module ++ "." ++ name) :: avoid) inner value x := by
  induction h with
  | flawed unresolvable => exact .inl (.flawed unresolvable)
  | cls hm stands noEnum => exact .inl (.cls hm stands noEnum)
  | @aliased scope scope' e value' dotted name' x hm stands noCall free _ ih =>
      have ha' : t.DeclaresAlias scope' name' value' :=
        Symbols.owns_lookup hk hs stands
      rcases ih ha'.inTree with h | h
      · by_cases hsame : scope'.module ++ "." ++ name' =
          inner.module ++ "." ++ name
        · obtain ⟨rfl, rfl⟩ := hd.alias ha' ha hsame
          exact .inr h
        · refine .inl (.aliased hm stands noCall ?_ h)
          exact fun hmem => (List.mem_cons.mp hmem).elim hsame free
      · exact .inr h

end Touches

/-- What a class needs besides its own struct. -/
def Needs (t : Symbols) (avoid : List String) (c : ProgramClass) (x : Needed) :
    Prop :=
  (∃ b ∈ t.bases c, .struct b.key = x) ∨ ∃ f ∈ c.decl.fields,
    Touches t avoid c.scope f.typeExpr x

theorem Needs.mono {t : Symbols} {avoid fewer : List String}
    {c : ProgramClass} {x : Needed} (h : Needs t avoid c x)
    (hf : fewer ⊆ avoid) : Needs t fewer c x :=
  h.imp_right fun ⟨f, hm, ht⟩ => ⟨f, hm, ht.mono hf⟩

theorem Needs.through {t : Symbols} (hd : t.Distinct) (hk : t.Keyed)
    {avoid : List String} {inner : Scope} {name : String} {value : Expr}
    {c : ProgramClass} {x : Needed} (ha : t.DeclaresAlias inner name value)
    (hc : t.Declares c) (h : Needs t avoid c x) :
    Needs t ((inner.module ++ "." ++ name) :: avoid) c x ∨
      Touches t ((inner.module ++ "." ++ name) :: avoid) inner value x := by
  rcases h with hb | ⟨f, hf, ht⟩
  · exact .inl (.inl hb)
  · exact (ht.through hd hk ha hc.inTree).imp_left fun ht => .inr ⟨f, hf, ht⟩

/-- A set of structs with all that its members need. -/
def Territory (t : Symbols) (R : StructKey → Prop) : Prop :=
  ∀ c, t.Declares c → R c.key → ∀ k, Needs t [] c (.struct k) → R k

/-! ## The contract -/

/-- What is taken care of: a struct that has its fields, or whose class is
being resolved. -/
def Known : Needed → Store → Prop
  | .struct k, s => s.done k ≠ none ∨ k ∈ s.classes
  | .impossible, _ => False

/-- What the structs that were not done before (`old`) need is taken care of. -/
def Closed (t : Symbols) (old : StructKey → Prop) (s : Store) : Prop :=
  ∀ c, t.Declares c → s.done c.key ≠ none → ¬old c.key →
    ∀ x, Needs t s.aliases c x → Known x s

/-- A store in which no struct has its fields whose class is being resolved. -/
structure Steady (t : Symbols) (s : Store) : Prop where
  housed : Housed t s
  waiting : ∀ k ∈ s.classes, s.done k = none

/-- What structs have got stays, and marks are taken back. -/
structure Store.Later (a b : Store) : Prop where
  classes : b.classes = a.classes
  aliases : b.aliases = a.aliases
  structs : ∀ k, Registered k a → Registered k b
  done : ∀ k x, a.done k = some x → b.done k = some x

theorem Store.Later.refl (s : Store) : s.Later s :=
  ⟨rfl, rfl, fun _ h => h, fun _ _ h => h⟩

theorem Store.Later.trans {a b c : Store} (h : a.Later b) (h' : b.Later c) :
    a.Later c :=
  ⟨h'.classes.trans h.classes, h'.aliases.trans h.aliases,
    fun k hk => h'.structs k (h.structs k hk), fun k x hx =>
    h'.done k x (h.done k x hx)⟩

/-- Resolving in a territory changes nothing outside. -/
def inside (t : Symbols) (R : StructKey → Prop) : Contract where
  holds := Steady t
  leads a b := a.Later b ∧ ∀ k, ¬R k → b.done k = a.done k
  refl s := ⟨.refl s, fun _ _ => rfl⟩
  trans h h' := ⟨h.1.trans h'.1, fun k hk => (h'.2 k hk).trans (h.2 k hk)⟩

section Stable

variable {t : Symbols} {R old : StructKey → Prop} {k : StructKey} {s s' : Store}

theorem Known.mono {x : Needed} (h : Known x s)
    (hdone : ∀ k, s.done k ≠ none → s'.done k ≠ none)
    (hclasses : s.classes ⊆ s'.classes) : Known x s' := by
  cases x with
  | struct k => exact h.imp (hdone k) fun hk => hclasses hk
  | impossible => exact h

theorem Known.later {x : Needed} (hl : s.Later s') (h : Known x s) :
    Known x s' := by
  refine h.mono (fun k hk => ?_) fun k hk => hl.classes ▸ hk
  obtain ⟨_, hx⟩ := Option.ne_none_iff_exists'.mp hk
  rw [hl.done k _ hx]
  exact Option.some_ne_none _

/-- A change of the store that a resolution does not see. -/
structure Store.Unseen (a b : Store) : Prop where
  classes : b.classes = a.classes
  aliases : b.aliases = a.aliases
  structs : ∀ k, Registered k a → Registered k b
  done : ∀ k, b.done k = a.done k

theorem Store.Unseen.later (h : s.Unseen s') : s.Later s' :=
  ⟨h.classes, h.aliases, h.structs, fun k _ hx => (h.done k).trans hx⟩

theorem Store.Unseen.steady (h : s.Unseen s') (hh : Housed t s')
    (hs : Steady t s) : Steady t s' := by
  refine ⟨hh, fun k hk => ?_⟩
  rw [h.classes] at hk
  rw [h.done]
  exact hs.waiting k hk

theorem Store.Unseen.closed (h : s.Unseen s') (hc : Closed t old s) :
    Closed t old s' := by
  intro c hdecl hdone hold k hk
  rw [h.done] at hdone
  rw [h.aliases] at hk
  exact (hc c hdecl hdone hold k hk).later h.later

theorem unseen_setDraft {p : String} {d : Draft} (hg : (s.draft p).Grows d)
    (hget : ∀ n, d.get? n = (s.draft p).get? n)
    (hres : d.resolved = (s.draft p).resolved) : s.Unseen (s.setDraft p d) :=
  ⟨rfl, rfl, fun _ hk => hk.adds (Store.Grows.setDraft hg).drafts,
    fun k => Store.done_setDraft hget hres k⟩

theorem unseen_registered (hh : Housed t s) (c : ProgramClass) :
    s.Unseen (s.registered c) :=
  ⟨(s.registered_marks c).1, (s.registered_marks c).2,
    fun _ hk => hk.adds (Store.Grows.registered s c).drafts,
    hh.done_registered c⟩

end Stable

/-! ## Small steps -/

/-- The struct of a class as it is answered: with its fields, or blank while
these are being collected. -/
structure Answer (c : ProgramClass) (st : Struct) (s : Store) : Prop where
  package : st.package = c.package
  name : st.name = c.name
  fields : s.done c.key = some (shapeOf st.fields) ∨ c.key ∈ s.classes ∧
      shapeOf st.fields = []

theorem Answer.known {c : ProgramClass} {st : Struct} {s : Store}
    (h : Answer c st s) : Known (.struct c.key) s := by
  rcases h.fields with h | h
  · exact .inl (by rw [h]; exact fun hn => by cases hn)
  · exact .inr h.1

/-- An expansion that stays in a territory and sees to what is needed. -/
structure Expansion.Completes (expand : Expansion) (t : Symbols)
    (R old : StructKey → Prop) : Prop where
  cls : ∀ c, t.Declares c → R c.key →
    Keeps (inside t R) AnyStop (Closed t old) (expand.cls c)
    fun st s => Closed t old s ∧ Answer c st s
  aliased : ∀ site scope name value, t.DeclaresAlias scope name value →
    (isCall value = false → ∀ k, Touches t [] scope value (.struct k) → R k) →
    Keeps (inside t R) AnyStop (Closed t old)
      (expand.aliased site scope name value) fun _ s => Closed t old s ∧
      (isCall value = false → scope.module ++ "." ++ name ∉ s.aliases →
        ∀ x, Touches t s.aliases scope value x → Known x s)

section Completing

variable {t : Symbols} {R old : StructKey → Prop} {expand : Expansion}

theorem modify_completes {P : Store → Prop} {f : Store → Store}
    (hf : ∀ s, Housed t s → Housed t (f s) ∧ s.Unseen (f s))
    (hP : ∀ s s', s.Unseen s' → P s → P s') :
    Keeps (inside t R) AnyStop P (modify f : Resolve Unit) fun _ => P := by
  refine Keeps.modify fun s hs hp => ?_
  obtain ⟨hh, hu⟩ := hf s hs.housed
  exact ⟨⟨hu.later, fun k _ => hu.done k⟩, hu.steady hh hs, hP _ _ hu hp⟩

theorem addReference_unseen (owner package : String) (s : Store)
    (h : Housed t s) :
    Housed t (s.setDraft owner ((s.draft owner).addReference package)) ∧
      s.Unseen (s.setDraft owner ((s.draft owner).addReference package)) := by
  have hg := Draft.grows_addReference (s.draft owner) package
  have hget := Draft.get?_addReference (s.draft owner) package
  have hres := Draft.resolved_addReference (s.draft owner) package
  exact ⟨h.change hg.name hget hres, unseen_setDraft hg hget hres⟩

theorem addUnresolved_unseen (owner name : String) (s : Store)
    (h : Housed t s) :
    Housed t (s.setDraft owner ((s.draft owner).addUnresolved name)) ∧
      s.Unseen (s.setDraft owner ((s.draft owner).addUnresolved name)) :=
  ⟨h.change rfl (fun _ => rfl) rfl,
    unseen_setDraft (Draft.grows_addUnresolved _ _) (fun _ => rfl) rfl⟩

theorem structRef_completes (h : expand.Completes t R old) (owner : String)
    {c : ProgramClass} (hc : t.Declares c) (hR : R c.key) :
    Keeps (inside t R) AnyStop (Closed t old) (structRef expand owner c)
      fun _ s => Closed t old s ∧ Known (.struct c.key) s := by
  refine (h.cls c hc hR).bind fun st => ?_
  refine Keeps.bind
    (Q := fun _ s => Closed t old s ∧ Known (.struct c.key) s) ?_ fun _ =>
    Keeps.pure fun _ _ h => h
  refine (modify_completes (addReference_unseen owner c.package) ?_).pre
    fun s _ hs =>
    (⟨hs.1, hs.2.known⟩ : Closed t old s ∧ Known (.struct c.key) s)
  exact fun s s' hu hs => ⟨hu.closed hs.1, hs.2.later hu.later⟩

theorem namedType_completes (hk : t.Keyed)
    (h : expand.Completes t R old) {site : Site} (hs : t.Has site.scope)
    (row : Nat) (dotted : String)
    (hR : ∀ k, NameTouches t [] site.scope dotted (.struct k) → R k) :
    Keeps (inside t R) AnyStop (Closed t old)
      (namedType t expand site row dotted) fun _ s =>
        Closed t old s ∧ ∀ x, NameTouches t s.aliases site.scope dotted x →
          Known x s := by
  unfold namedType
  split
  · exact Keeps.throw trivial
  · next hl =>
      refine (modify_completes (addUnresolved_unseen site.owner _)
        fun _ _ hu hs => hu.closed hs).bind fun _ =>
        Keeps.pure fun s _ hs => ⟨hs, fun k hk => ?_⟩
      cases hk with
      | cls stands => rw [hl] at stands; cases stands
      | aliased stands => rw [hl] at stands; cases stands
  · next scope name value hl =>
      have ha : t.DeclaresAlias scope name value := Symbols.owns_lookup hk hs hl
      refine (h.aliased site scope name value ha fun hcall k hk =>
        hR k (.aliased hl hcall List.not_mem_nil hk)).post fun _ s _ hpost =>
          ⟨hpost.1, fun k hk => ?_⟩
      cases hk with
      | cls stands => rw [hl] at stands; cases stands
      | aliased stands noCall free rest =>
          rw [hl] at stands
          cases stands
          exact hpost.2 noCall free k rest
  · next c hl =>
      have hc : t.Declares c := Symbols.owns_lookup hk hs hl
      split
      · next type htype =>
          refine Keeps.pure fun s _ hs => ⟨hs, fun k hk => ?_⟩
          cases hk with
          | cls stands noEnum =>
              rw [hl] at stands
              cases stands
              rw [htype] at noEnum
              cases noEnum
          | aliased stands => rw [hl] at stands; cases stands
      · next hnone =>
          refine (structRef_completes h site.owner hc
            (hR _ (.cls hl hnone))).post fun _ s _ hpost =>
            ⟨hpost.1, fun k hk => ?_⟩
          cases hk with
          | cls stands noEnum =>
              rw [hl] at stands
              cases stands
              exact hpost.2
          | aliased stands => rw [hl] at stands; cases stands
  · exact Keeps.throw trivial

theorem annotation_completes (hk : t.Keyed)
    (h : expand.Completes t R old) (site : Site) (hs : t.Has site.scope)
    (e : Expr) (hR : ∀ k, Touches t [] site.scope e (.struct k) → R k) :
    Keeps (inside t R) AnyStop (Closed t old) (annotationWith t expand site e)
      fun _ s => Closed t old s ∧ ∀ x, Touches t s.aliases site.scope e x →
      Known x s := by
  have hread : Keeps (inside t R) AnyStop (Closed t old)
      (annotationWith t expand site e) fun _ s => Closed t old s ∧
      ∀ dotted, Mentions site.scope e dotted →
        ∀ x, NameTouches t s.aliases site.scope dotted x → Known x s := by
    refine (annotation_keeps (R := fun _ _ => True)
      (V := fun dotted s => ∀ x, NameTouches t s.aliases site.scope dotted x →
        Known x s)
      (fun _ _ _ _ h => h) (fun dotted s s' hl h k hk => ?_)
      (fun _ _ _ => trivial) fun dotted hm row => ?_).post fun _ s _ hpost =>
      ⟨hpost.1, hpost.2.2⟩
    · rw [hl.1.aliases] at hk
      exact (h k hk).later hl.1
    · refine (namedType_completes hk h hs row dotted fun k hk =>
        hR k (hk.touches hm)).post ?_
      exact fun _ _ _ hpost => ⟨hpost.1, fun _ _ => trivial, hpost.2⟩
  by_cases hsound : t.Unresolvable site.scope e
  · exact hread.refused (annotationWith_refuses hsound)
  · refine hread.post fun _ s _ hpost => ⟨hpost.1, fun x hx => ?_⟩
    obtain ⟨dotted, hm, hname⟩ := hx.name hsound
    exact hpost.2 dotted hm x hname

/-! ## The fields of a class -/

/-- What is known when some bases and some fields of a class have
been seen to. -/
structure Supplied (t : Symbols) (old : StructKey → Prop) (c : ProgramClass)
    (bases : List ProgramClass) (fields : List FieldDecl) (s : Store) :
    Prop where
  closed : Closed t old s
  bases : ∀ b ∈ bases, Known (.struct b.key) s
  fields : ∀ f ∈ fields,
      ∀ x, Touches t s.aliases c.scope f.typeExpr x → Known x s

theorem baseFields_completes (h : expand.Completes t R old) (c : ProgramClass)
    {bases : List ProgramClass} (hbases : ∀ b ∈ bases, t.Declares b ∧ R b.key) :
    Keeps (inside t R) AnyStop (Closed t old) (baseFields expand bases)
      fun _ => Supplied t old c bases [] := by
  refine (Keeps.foldlM_done
    (J := fun done (_ : Table StructField) => Supplied t old c done [])
    (fun done b hb fields => ?_) [] .empty).pre fun s _ hs => ⟨hs, ?_, ?_⟩
  · have hstable : (inside t R).Stable fun s =>
        ∀ b ∈ done, Known (.struct b.key) s :=
      fun hl hs b hb => (hs b hb).later hl.1
    refine ((((h.cls b (hbases b hb).1 (hbases b hb).2).carry hstable).pre
      fun s _ hs => ⟨hs.closed, hs.bases⟩).bind fun st =>
      Keeps.pure fun s _ hs => ?_)
    refine ⟨hs.1.1, fun b' hb' => ?_, fun f hf => absurd hf List.not_mem_nil⟩
    rcases List.mem_append.mp hb' with hb' | hb'
    · exact hs.2 b' hb'
    · rw [List.mem_singleton.mp hb']
      exact hs.1.2.known
  · exact fun b hb => absurd hb List.not_mem_nil
  · exact fun f hf => absurd hf List.not_mem_nil

theorem ownField_completes (hk : t.Keyed) (h : expand.Completes t R old)
    {c : ProgramClass} (hc : t.Declares c) (f : FieldDecl)
    (hR : ∀ k, Touches t [] c.scope f.typeExpr (.struct k) → R k) :
    Keeps (inside t R) AnyStop (Closed t old) (ownField t expand c f) fun _ s =>
      Closed t old s ∧ ∀ x, Touches t s.aliases c.scope f.typeExpr x →
        Known x s :=
  (annotation_completes hk h ⟨c.scope, c.package, c.name ++ "." ++ f.name⟩
    hc.inTree f.typeExpr hR).bind fun _ => Keeps.pure fun _ _ hs => hs

theorem collectFields_completes (hk : t.Keyed) (h : expand.Completes t R old)
    {c : ProgramClass} (hc : t.Declares c)
    (hR : ∀ k, Needs t [] c (.struct k) → R k) :
    Keeps (inside t R) AnyStop (Closed t old)
      (collectFields t expand c) fun _ s =>
      Closed t old s ∧ ∀ x, Needs t s.aliases c x → Known x s := by
  have hbases : ∀ b ∈ t.bases c, t.Declares b ∧ R b.key := fun b hb =>
    ⟨Symbols.declares_bases hk hc hb, hR _ (.inl ⟨b, hb, rfl⟩)⟩
  refine (baseFields_completes h c hbases).bind fun inherited => ?_
  refine (Keeps.foldlM_done (J := fun done (_ : Table StructField) =>
    Supplied t old c (t.bases c) done) (fun done f hf fields => ?_)
      [] inherited).bind fun fields =>
      Keeps.pure fun s _ hs => ⟨hs.closed, fun k hk => ?_⟩
  · have hown := ownField_completes hk h hc f fun k hk =>
      hR k (.inr ⟨f, hf, hk⟩)
    have hstable : (inside t R).Stable fun s =>
        (∀ b ∈ t.bases c, Known (.struct b.key) s) ∧ ∀ g ∈ done,
          ∀ x, Touches t s.aliases c.scope g.typeExpr x → Known x s := by
      intro s s' hl hs
      refine ⟨fun b hb => (hs.1 b hb).later hl.1, fun g hg k hk => ?_⟩
      rw [hl.1.aliases] at hk
      exact (hs.2 g hg k hk).later hl.1
    refine ((hown.carry hstable).pre fun s _ hs =>
      ⟨hs.closed, hs.bases, hs.fields⟩).bind fun own =>
        Keeps.pure fun s _ hs => ⟨hs.1.1, hs.2.1, fun g hg => ?_⟩
    rcases List.mem_append.mp hg with hg | hg
    · exact hs.2.2 g hg
    · rw [List.mem_singleton.mp hg]
      exact hs.1.2
  · rcases hk with ⟨b, hb, rfl⟩ | ⟨f, hf, hk⟩
    · exact hs.bases b hb
    · exact hs.fields f hf k hk

/-! ## Classes and aliases -/

/-- The struct that is answered at once. -/
theorem answer_registered (hd : t.Distinct) {s : Store} (hs : Steady t s)
    {c : ProgramClass} (hc : t.Declares c) (ha : s.answers c) :
    Answer c (s.structOf c) (s.registered c) := by
  obtain ⟨hpackage, hname, -, hshape, -⟩ := hs.housed.structOf hd hc
  refine ⟨hpackage, hname, ?_⟩
  rw [hs.housed.done_registered, (s.registered_marks c).1]
  cases hdone : s.done c.key with
  | some x =>
      rw [hdone] at hshape
      exact .inl (by rw [hshape]; rfl)
  | none =>
      rw [hdone] at hshape
      exact .inr ⟨ha.resolve_left fun h => h hdone, hshape⟩

/-- A class is entered: it is marked and has no fields yet. -/
theorem entering_steady {s : Store} (hs : Steady t s) {k : StructKey}
    (hk : s.done k = none) : Steady t (s.entering k) := by
  refine ⟨hs.housed.of_drafts rfl, fun k' hk' => ?_⟩
  show s.done k' = none
  rcases List.mem_cons.mp hk' with rfl | hk'
  · exact hk
  · exact hs.waiting k' hk'

theorem entering_closed {s : Store} (hs : Closed t old s) (k : StructKey) :
    Closed t old (s.entering k) := fun c hc hdone hold k' hk' =>
  (hs c hc hdone hold k' hk').mono (fun _ h => h) fun _ =>
    List.mem_cons_of_mem k

theorem leaving_classes {s s' : Store} {k : StructKey}
    (h : s'.classes = (s.entering k).classes) :
    (s'.leaving k).classes = s.classes := by
  show s'.classes.erase k = s.classes
  rw [h]
  exact List.erase_cons_head ..

theorem leaving_aliases {s s' : Store} {name : String}
    (h : s'.aliases = (s.expanding name).aliases) :
    (s'.expanded name).aliases = s.aliases := by
  show s'.aliases.erase name = s.aliases
  rw [h]
  exact List.erase_cons_head ..

/-- What is left of a store when a class has been entered and left again. -/
theorem left_steady {s s' : Store} {k : StructKey} (hs' : Steady t s')
    (hm : s'.classes = (s.entering k).classes) : Steady t (s'.leaving k) := by
  refine ⟨hs'.housed.of_drafts rfl, fun k' hk' => hs'.waiting k' ?_⟩
  rw [leaving_classes hm] at hk'
  rw [hm]
  exact List.mem_cons_of_mem k hk'

theorem finishing_steady {s s' : Store} {c : ProgramClass} (hs' : Steady t s')
    (hm : s'.classes = (s.entering c.key).classes) (hopen : c.key ∉ s.classes)
    (hreg : Registered c.key s') (fields : List StructField) :
    Steady t (s'.finishing c fields) := by
  refine ⟨(Housed.complete (hs'.housed.of_drafts rfl) hreg fields).of_drafts
    rfl, fun k hk => ?_⟩
  rw [show (s'.finishing c fields).classes = s.classes from leaving_classes hm]
    at hk
  have hne : k ≠ c.key := fun he => hopen (he ▸ hk)
  rw [done_finishing hreg, if_neg hne]
  exact hs'.waiting k (by rw [hm]; exact List.mem_cons_of_mem _ hk)

/-- A class that is left has what it needs, and so do those that
were left before. -/
theorem finishing_closed {s s' : Store} (hd : t.Distinct) {c : ProgramClass}
    (hc : t.Declares c) (hm : s'.classes = (s.entering c.key).classes)
    (hreg : Registered c.key s') (fields : List StructField)
    (hcl : Closed t old s')
    (hneeds : ∀ x, Needs t s'.aliases c x → Known x s') :
    Closed t old (s'.finishing c fields) := by
  have hknown : ∀ x, Known x s' → Known x (s'.finishing c fields) := by
    rintro (k | _) hk
    swap
    · exact hk
    by_cases he : k = c.key
    · refine .inl ?_
      rw [done_finishing hreg, if_pos he]
      exact fun hn => by cases hn
    · rcases hk with hk | hk
      · refine .inl ?_
        rwa [done_finishing hreg, if_neg he]
      · refine .inr ?_
        rw [show (s'.finishing c fields).classes =
          s.classes from leaving_classes hm]
        rw [hm] at hk
        exact (List.mem_cons.mp hk).resolve_left he
  intro c' hc' hdone hold k hk
  by_cases he : c'.key = c.key
  · cases hd.cls c' c hc' hc he
    exact hknown k (hneeds k hk)
  · rw [done_finishing hreg, if_neg he] at hdone
    exact hknown k (hcl c' hc' hdone hold k hk)

theorem resolveClass_completes (hk : t.Keyed) (hd : t.Distinct)
    (h : expand.Completes t R old) (hterritory : Territory t R)
    {c : ProgramClass} (hc : t.Declares c) (hR : R c.key) :
    Keeps (inside t R) AnyStop (Closed t old) (resolveClass t expand c)
      fun st s => Closed t old s ∧ Answer c st s := by
  intro s hs hcl
  have hu := unseen_registered hs.housed c
  have hregistered : Steady t (s.registered c) :=
    hu.steady (hs.housed.register hd hc) hs
  obtain ⟨hanswered, hentered⟩ := resolveClass_run hd hs.housed expand hc
  -- a class that answers at once changes nothing that counts, and one that is
  -- entered adds its own struct to what its fields have added
  by_cases ha : s.answers c
  · rw [hanswered ha]
    exact ⟨⟨hu.later, fun k _ => hu.done k⟩, hregistered, hu.closed hcl,
      answer_registered hd hs hc ha⟩
  obtain ⟨hblank, hopen⟩ := not_or.mp ha
  have hnone : s.done c.key = none := not_not.mp hblank
  have hdone : (s.registered c).done c.key = none := (hu.done _).trans hnone
  rw [hentered ha]
  obtain ⟨⟨hl, hout⟩, hs', he⟩ :=
    collectFields_completes hk h hc (hterritory c hc hR) _
    (entering_steady hregistered hdone) (entering_closed (hu.closed hcl) c.key)
  rcases hr : collectFields t expand c ((s.registered c).entering c.key)
    with ⟨e | fields, s'⟩ <;> rw [hr] at hl hout hs' he
  · refine ⟨⟨⟨(leaving_classes hl.classes).trans hu.classes,
      hl.aliases.trans hu.aliases, fun k hk => hl.structs k (hu.structs k hk),
      fun k x hx => hl.done k x ((hu.done k).trans hx)⟩,
      fun k hk => (hout k hk).trans (hu.done k)⟩,
      left_steady hs' hl.classes, trivial⟩
  · have hreg : Registered c.key s' := hl.structs _ ⟨s.structOf c, by
      show (s.registered c).get? c.key = _
      rw [Store.get?_registered, if_pos rfl]⟩
    have hfinished := done_finishing hreg fields
    refine ⟨⟨⟨(leaving_classes hl.classes).trans hu.classes,
      hl.aliases.trans hu.aliases, fun k hk => ?_, fun k x hx => ?_⟩,
      fun k hk => ?_⟩, ?_, ?_, ?_⟩
    · exact (hl.structs k (hu.structs k hk)).finishing c fields
    · have hne : k ≠ c.key := fun he => by rw [he, hnone] at hx; cases hx
      rw [hfinished, if_neg hne]
      exact hl.done k x ((hu.done k).trans hx)
    · have hne : k ≠ c.key := fun he => hk (he ▸ hR)
      rw [hfinished, if_neg hne]
      exact (hout k hk).trans (hu.done k)
    · refine finishing_steady hs' hl.classes ?_ hreg fields
      rw [hu.classes]
      exact hopen
    · exact finishing_closed hd hc hl.classes hreg fields he.1 he.2
    · obtain ⟨hpackage, hname, -⟩ := hs.housed.structOf hd hc
      refine ⟨hpackage, hname, .inl ?_⟩
      rw [hfinished, if_pos rfl]

theorem expandAlias_completes (hkeyed : t.Keyed) (hd : t.Distinct)
    (h : expand.Completes t R old) (site : Site) {scope : Scope}
    {name : String} {value : Expr} (ha : t.DeclaresAlias scope name value)
    (hR : isCall value = false →
      ∀ k, Touches t [] scope value (.struct k) → R k) :
    Keeps (inside t R) AnyStop (Closed t old)
      (expandAlias t expand site scope name value) fun _ s => Closed t old s ∧
      (isCall value = false → scope.module ++ "." ++ name ∉ s.aliases →
        ∀ x, Touches t s.aliases scope value x → Known x s) := by
  intro s hs hcl
  rw [expandAlias_run]
  split
  · next hguard =>
      refine ⟨(inside t R).refl s, hs, hcl, fun hcall hfree => ?_⟩
      rcases hguard with hg | hg
      · rw [hcall] at hg
        cases hg
      · exact absurd hg hfree
  · next hguard =>
      obtain ⟨hnoCall, hfree⟩ := not_or.mp hguard
      have hcall : isCall value = false := by simpa using hnoCall
      rw [withAlias_run]
      -- while one alias more is marked less is needed, so what had all that it
      -- needs has it still
      have hinner : Closed t old (s.expanding (scope.module ++ "." ++ name)) :=
        fun c hc hdone hold k hk => (hcl c hc hdone hold k
          (hk.mono (List.subset_cons_self _ _))).mono
          (fun _ h => h) fun _ h => h
      obtain ⟨⟨hl, hout⟩, hs', he⟩ :=
        annotation_completes hkeyed h { site with scope := scope }
        ha.inTree value (hR hcall) (s.expanding (scope.module ++ "." ++ name))
        ⟨hs.housed.of_drafts rfl, hs.waiting⟩ hinner
      rcases hr : annotationWith t expand { site with scope := scope } value
        (s.expanding (scope.module ++ "." ++ name)) with ⟨e | type, s'⟩ <;>
        rw [hr] at hl hout hs' he
      all_goals
        have haliases := leaving_aliases hl.aliases
        have hlater : s.Later (s'.expanded (scope.module ++ "." ++ name)) :=
          ⟨hl.classes, haliases, hl.structs, hl.done⟩
        have hsteady : Steady t (s'.expanded (scope.module ++ "." ++ name)) :=
          ⟨hs'.housed.of_drafts rfl, hs'.waiting⟩
      · exact ⟨⟨hlater, hout⟩, hsteady, trivial⟩
      · obtain ⟨hclosed, htouched⟩ := he
        have hkept {x : Needed} (hx : Known x s') :
            Known x (s'.expanded (scope.module ++ "." ++ name)) :=
          hx.mono (fun _ h => h) fun _ h => h
        have hvalue :
            ∀ x, Touches t ((scope.module ++ "." ++ name) :: s.aliases)
              scope value x →
            Known x s' := fun k hk => htouched k (by rw [hl.aliases]; exact hk)
        -- without the mark more is needed again, but only by way of the value,
        -- which has just been read
        refine ⟨⟨hlater, hout⟩, hsteady, fun c hc hdone hold k hk => ?_,
          fun _ _ k hk => ?_⟩
        · rw [haliases] at hk
          rcases hk.through hd hkeyed ha hc with hk | hk
          · exact hkept (hclosed c hc hdone hold k
              (by rw [hl.aliases]; exact hk))
          · exact hkept (hvalue k hk)
        · rw [haliases] at hk
          rcases hk.through hd hkeyed ha ha.inTree with hk | hk <;>
            exact hkept (hvalue k hk)

end Completing

/-! ## All levels -/

theorem levels_complete {t : Symbols} (hk : t.Keyed) (hd : t.Distinct)
    {R : StructKey → Prop} (hterritory : Territory t R)
    (old : StructKey → Prop) (n : Nat) :
    Expansion.Completes ⟨classAt t n, aliasAt t n⟩ t R old := by
  induction n with
  | zero =>
      exact ⟨fun _ _ _ => Keeps.throw trivial, fun _ _ _ _ _ _ =>
        Keeps.throw trivial⟩
  | succ n ih =>
      rw [levels_succ]
      refine ⟨fun c hc hR => ?_, fun site scope name value ha hR => ?_⟩
      · exact resolveClass_completes hk hd ih hterritory hc hR
      · exact expandAlias_completes hk hd ih site ha hR

/-- The class of a program, resolved from anywhere. -/
theorem resolve_completes {t : Symbols} (hk : t.Keyed) (hd : t.Distinct)
    (old : StructKey → Prop) {c : ProgramClass} (hc : t.Declares c) :
    Keeps (inside t fun _ => True) AnyStop (Closed t old) (t.resolve c)
      fun st s => Closed t old s ∧ Answer c st s :=
  (levels_complete hk hd (fun _ _ _ _ _ => trivial) old _).cls c hc trivial

end BridgeBindings
