import BridgeBindings.Proofs.Fidelity

/-!
# What an annotation stands for by the text

The answer to an annotation is a type, and everything else that a call does, it
does to the store on the way. The type needs none of that: a struct is referred
to by the package and the name of its class, and these are known before the
class is resolved. So the same type comes out if classes are only named, which
makes it a function of the annotation, its scope and the symbol table.

The two are run side by side. What the first one answers, the second one
answers too, in whatever store it runs; all that has to be the same in both
stores is which of the aliases that the annotation comes through are being
expanded already.
-/

namespace BridgeBindings

open Syntax

/-! ## Classes that are only named -/

/-- What stands for a class before anything of it is resolved. -/
def ProgramClass.outline (c : ProgramClass) : Struct :=
  ⟨c.package, c.module, c.name, [], c.doc⟩

/-- Aliases are expanded, and classes are only named. -/
def sketch (t : Symbols) : Nat → Expansion
  | 0 => ⟨fun c => return c.outline, fun _ _ _ _ => throw .exhausted⟩
  | levels + 1 => ⟨fun c => return c.outline, expandAlias t (sketch t levels)⟩

/-- The aliases that expanding an annotation comes through. Classes are not
followed, and neither is an alias for the result of a call. -/
inductive Symbols.Unfolds (t : Symbols) : Scope → Expr → String → Prop where
  | here {scope scope' : Scope} {e value : Expr} {dotted name : String}
      (mentioned : Mentions scope e dotted)
      (stands : t.lookup scope dotted = some (.alias scope' name value)) :
      Unfolds t scope e (scope'.module ++ "." ++ name)
  | through {scope scope' : Scope} {e value : Expr} {dotted name q : String}
      (mentioned : Mentions scope e dotted)
      (stands : t.lookup scope dotted = some (.alias scope' name value))
      (noCall : isCall value = false) (rest : Unfolds t scope' value q) :
      Unfolds t scope e q

/-- The aliases that an alias comes through, itself among them. -/
def Symbols.UnfoldsAlias (t : Symbols) (scope : Scope) (name : String)
    (value : Expr) (q : String) : Prop :=
  q = scope.module ++ "." ++ name ∨ isCall value = false ∧
    t.Unfolds scope value q

namespace Symbols

/-- The type of an annotation by the text, with the mentioned
aliases cut short. -/
def typingUnder (t : Symbols) (marks : List String) (levels : Nat)
    (scope : Scope) (e : Expr) : Option TypeRef :=
  (annotationWith t (sketch t levels) ⟨scope, "", ""⟩ e
    { Store.ofPackages [] "" with aliases := marks }).1.toOption

/-- The type of an annotation by the text. -/
def typing (t : Symbols) (scope : Scope) (e : Expr) : Option TypeRef :=
  t.typingUnder [] t.levels scope e

end Symbols

/-! ## Steps side by side -/

/-- Of these aliases the same ones are being expanded in two stores. -/
def Store.MarkedAlike (among : String → Prop) (s s' : Store) : Prop :=
  ∀ q, among q → (q ∈ s.aliases ↔ q ∈ s'.aliases)

/-- What a step answers, from a store with `H`, another one answers in every
store with the same marks. Both take their own marks back. -/
def Echoes (H : Store → Prop) (among : String → Prop) ⦃α : Type⦄
    (step echo : Resolve α) : Prop :=
  ∀ s s', H s → s.MarkedAlike among s' → ∀ a after, step s = (.ok a, after) →
    (H after ∧ after.aliases = s.aliases) ∧
      ∃ after', echo s' = (.ok a, after') ∧ after'.aliases = s'.aliases

/-- A property that rests on the structs of a store alone. -/
structure Steadfast (H : Store → Prop) : Prop where
  change : ∀ {s : Store} {p : String} {d : Draft}, H s → (s.draft p).Grows d →
    (∀ n, d.get? n = (s.draft p).get? n) → H (s.setDraft p d)
  marks : ∀ {s s' : Store}, H s → s'.drafts = s.drafts → H s'

theorem steadfast_wellFormed (t : Symbols) : Steadfast (WellFormed t) :=
  ⟨fun h hg hsame => h.change hg hsame, fun h hd => h.of_drafts hd⟩

theorem steadfast_always : Steadfast Always :=
  ⟨fun _ _ _ => trivial, fun _ _ => trivial⟩

section Echoing

variable {H : Store → Prop} {among among' : String → Prop} {α : Type}
    {step echo : Resolve α}

theorem Echoes.wider (h : Echoes H among step echo)
    (hsub : ∀ q, among q → among' q) : Echoes H among' step echo :=
  fun s s' hs hmarks => h s s' hs fun q hq => hmarks q (hsub q hq)

theorem Echoes.throw {e : Stop} :
    Echoes H among (MonadExcept.throw e : Resolve α) echo :=
  fun _ _ _ _ _ _ hr => by cases hr

theorem Echoes.stop {f : TypeFault} :
    Echoes H among (Resolve.stop f : Resolve α) echo := .throw

theorem composes_echoes : Composes (Echoes H among) where
  pure a s s' hs _ b after hr := by
    cases hr
    exact ⟨⟨hs, rfl⟩, s', rfl, rfl⟩
  bind {_ _ x y f g} hx hf s s' hs hmarks b after hr := by
    obtain ⟨a, s₁, ha, hb⟩ := ok_of_bind hr
    obtain ⟨⟨hs₁, hkept⟩, s₁', ha', hkept'⟩ := hx s s' hs hmarks a s₁ ha
    have hmarks₁ : s₁.MarkedAlike among s₁' := by
      intro q hq
      rw [hkept, hkept']
      exact hmarks q hq
    obtain ⟨⟨hafter, hback⟩, after', hb', hback'⟩ :=
      hf a s₁ s₁' hs₁ hmarks₁ b after hb
    refine ⟨⟨hafter, hback.trans hkept⟩, after', ?_, hback'.trans hkept'⟩
    rw [run_bind, ha']
    exact hb'

theorem changeDraft_echoes (hH : Steadfast H) {p p' : String}
    {f : Draft → Draft} (hgrows : ∀ d, Draft.Grows d (f d))
    (hget : ∀ d n, Draft.get? (f d) n = d.get? n) :
    Echoes H among (Resolve.changeDraft p f) (Resolve.changeDraft p' f) := by
  intro s s' hs _ a after hr
  cases hr
  exact ⟨⟨hH.change hs (hgrows _) (hget _), rfl⟩, _, rfl, rfl⟩

/-! ## Names -/

/-- A reference to a struct. -/
def Struct.reference (s : Struct) : TypeRef := .struct ⟨s.package, s.name⟩

/-- An expansion whose answers another one gives as well, as far as
types show them. -/
structure Expansion.EchoedBy (expand echo : Expansion) (t : Symbols)
    (H : Store → Prop) : Prop where
  cls : ∀ c, t.Declares c → ∀ among,
    Echoes H among (Struct.reference <$> expand.cls c)
      (Struct.reference <$> echo.cls c)
  aliased : ∀ site site' scope name value, t.DeclaresAlias scope name value →
    Echoes H (t.UnfoldsAlias scope name value)
      (expand.aliased site scope name value)
      (echo.aliased site' scope name value)

theorem structRef_eq (expand : Expansion) (owner : String) (c : ProgramClass) :
    structRef expand owner c = (do
      let type ← Struct.reference <$> expand.cls c
      Resolve.changeDraft owner (·.addReference c.package)
      return type) := by
  rw [bind_map_left]
  rfl

variable {t : Symbols} {expand other : Expansion}

theorem structRef_echoes (hH : Steadfast H) (h : expand.EchoedBy other t H)
    (owner owner' : String) {c : ProgramClass} (hc : t.Declares c) :
    Echoes H among (structRef expand owner c) (structRef other owner' c) := by
  rw [structRef_eq, structRef_eq]
  refine composes_echoes.bind (h.cls c hc among) fun type => ?_
  refine composes_echoes.bind ?_ fun _ => composes_echoes.pure type
  exact changeDraft_echoes hH (fun d => Draft.grows_addReference d c.package)
    fun d n => Draft.get?_addReference d c.package n

variable (hk : t.Keyed) (hH : Steadfast H) (h : expand.EchoedBy other t H)
  (site site' : Site) (hs : t.Has site.scope)
  (hscope : site'.scope = site.scope)

include hk hH h hs hscope

theorem namedType_echoes {e : Expr} {dotted : String}
    (hm : Mentions site.scope e dotted) (row : Nat) :
    Echoes H (t.Unfolds site.scope e) (namedType t expand site row dotted)
      (namedType t other site' row dotted) := by
  unfold namedType
  rw [hscope]
  cases hl : t.lookup site.scope dotted with
  | none => exact .stop
  | some symbol =>
      have howns := Symbols.owns_lookup hk hs hl
      cases symbol with
      | external name =>
          refine composes_echoes.bind ?_ fun _ => composes_echoes.pure _
          exact changeDraft_echoes hH
            (fun d => Draft.grows_addUnresolved d name) fun _ _ => rfl
      | «alias» scope name value =>
          refine (h.aliased site site' scope name value howns).wider fun q hq =>
            ?_
          rcases hq with rfl | ⟨hcall, hq⟩
          · exact .here hm hl
          · exact .through hm hl hcall hq
      | cls c =>
          dsimp only
          cases t.enumType c with
          | some type => exact composes_echoes.pure type
          | none => exact structRef_echoes hH h _ _ howns
      | function | module => exact .stop

theorem annotation_echoes (e : Expr) :
    Echoes H (t.Unfolds site.scope e) (annotationWith t expand site e)
      (annotationWith t other site' e) :=
  annotation_matches composes_echoes hscope (fun _ _ _ _ _ _ hr => by cases hr)
    ⟨fun _ _ _ _ _ _ _ => .throw, fun _ x _ hw hx hd =>
      namedType_echoes hk hH h site site' hs hscope (hw.mentions hx hd) x.row⟩

end Echoing

/-! ## Aliases -/

section Aliases

variable {H : Store → Prop} {t : Symbols} {expand other : Expansion}

/-- The mark of the alias itself is set in both stores before its
value is read. -/
theorem expandAlias_echoes (hk : t.Keyed) (hH : Steadfast H)
    (h : expand.EchoedBy other t H) (site site' : Site) {scope : Scope}
    {name : String} {value : Expr} (ha : t.DeclaresAlias scope name value) :
    Echoes H (t.UnfoldsAlias scope name value)
      (expandAlias t expand site scope name value)
      (expandAlias t other site' scope name value) := by
  intro s s' hs hmarks a after hr
  rw [expandAlias_run] at hr ⊢
  have hown := hmarks _ (.inl rfl)
  -- the alias is cut short in both stores or in neither, for whether it is
  -- marked is among what the stores agree on
  by_cases hcut : isCall value = true ∨ scope.module ++ "." ++ name ∈ s.aliases
  · rw [if_pos hcut] at hr
    rw [hown] at hcut
    rw [if_pos hcut]
    cases hr
    exact ⟨⟨hs, rfl⟩, s', rfl, rfl⟩
  · rw [if_neg hcut, withAlias_run] at hr
    have hcall : isCall value = false := Bool.eq_false_iff.mpr fun hcall =>
      hcut (.inl hcall)
    rw [hown] at hcut
    rw [if_neg hcut, withAlias_run]
    have hinside : (s.expanding (scope.module ++ "." ++ name)).MarkedAlike
        (t.Unfolds scope value)
        (s'.expanding (scope.module ++ "." ++ name)) := by
      intro q hq
      show q ∈ _ :: s.aliases ↔ q ∈ _ :: s'.aliases
      rw [List.mem_cons, List.mem_cons, hmarks q (.inr ⟨hcall, hq⟩)]
    rcases hvalue : annotationWith t expand { site with scope := scope } value
      (s.expanding (scope.module ++ "." ++ name)) with ⟨answer, inner⟩
    rw [hvalue] at hr
    cases hr
    obtain ⟨⟨hafter, hkept⟩, inner', hr', hkept'⟩ :=
      annotation_echoes hk hH h { site with scope := scope }
        { site' with scope := scope } ha.inTree rfl value
        (s.expanding (scope.module ++ "." ++ name))
        (s'.expanding (scope.module ++ "." ++ name)) (hH.marks hs rfl)
        hinside a inner hvalue
    refine ⟨⟨hH.marks hafter rfl, ?_⟩,
      inner'.expanded (scope.module ++ "." ++ name), ?_, ?_⟩
    · show List.erase inner.aliases _ = _
      rw [hkept]
      exact List.erase_cons_head _ _
    · rw [hr']
    · show List.erase inner'.aliases _ = _
      rw [hkept']
      exact List.erase_cons_head _ _

theorem sketch_echoes (hk : t.Keyed) {n m : Nat} (hnm : n ≤ m) :
    (sketch t n).EchoedBy (sketch t m) t Always := by
  have hcls : ∀ (n m : Nat) (c : ProgramClass) (among : String → Prop),
      Echoes Always among (Struct.reference <$> (sketch t n).cls c)
        (Struct.reference <$> (sketch t m).cls c) := by
    intro n m c among
    have hnamed : ∀ n, (sketch t n).cls c = pure c.outline := by
      intro n
      cases n <;> rfl
    rw [hnamed, hnamed]
    exact composes_echoes.map (composes_echoes.pure c.outline)
  induction n generalizing m with
  | zero =>
      exact ⟨fun c _ => hcls 0 m c,
        fun _ _ _ _ _ _ _ _ _ _ _ _ hr => by cases hr⟩
  | succ n ih =>
      cases m with
      | zero => omega
      | succ m =>
          refine ⟨fun c _ => hcls _ _ c,
            fun site site' scope name value ha => ?_⟩
          exact expandAlias_echoes hk steadfast_always
            (ih (by omega)) site site' ha

/-- Resolving classes shows nothing that naming them does not. -/
theorem levels_echo (hk : t.Keyed) {n m : Nat} (hnm : n ≤ m) :
    Expansion.EchoedBy ⟨classAt t n, aliasAt t n⟩ (sketch t m) t
    (WellFormed t) := by
  have hcls : ∀ (n m : Nat) (c : ProgramClass), t.Declares c → ∀ among,
      Echoes (WellFormed t) among (Struct.reference <$> classAt t n c)
        (Struct.reference <$> (sketch t m).cls c) := by
    intro n m c hc among s s' hs _ type after hr
    rw [map_eq_pure_bind] at hr
    obtain ⟨st, s₁, hst, hr⟩ := ok_of_bind hr
    cases hr
    obtain ⟨hgrows, hwell, hends⟩ := (levels_sound hk n).cls c hc s hs trivial
    dsimp only at hgrows hwell hends
    rw [hst] at hgrows hwell hends
    have hsame : c.outline.reference = st.reference := by
      unfold Struct.reference
      rw [hends.package, hends.name]
      rfl
    refine ⟨⟨hwell, hgrows.aliases⟩, s', ?_, rfl⟩
    rw [← hsame]
    cases m <;> rfl
  -- a class is answered by its name alone, on whatever level, so only aliases
  -- need the induction
  induction n generalizing m with
  | zero =>
      exact ⟨fun c hc => hcls 0 m c hc,
        fun _ _ _ _ _ _ _ _ _ _ _ _ hr => by cases hr⟩
  | succ n ih =>
      cases m with
      | zero => omega
      | succ m =>
          refine ⟨fun c hc => hcls _ _ c hc,
            fun site site' scope name value ha => ?_⟩
          exact expandAlias_echoes hk (steadfast_wellFormed t)
            (ih (by omega)) site site' ha

end Aliases

/-! ## Types -/

section Types

variable {t : Symbols} (hk : t.Keyed)

include hk

/-- What a call answers at any level of a resolution is the type by the text, as
far as the aliases agree that the annotation comes through. -/
theorem typingUnder_of_answer {n m : Nat} (hnm : n ≤ m) {s : Store}
    (hs : WellFormed t s) {site : Site} (hsite : t.Has site.scope) {e : Expr}
    {marks : List String}
    (hmarks : ∀ q, t.Unfolds site.scope e q → (q ∈ s.aliases ↔ q ∈ marks))
    {type : TypeRef} {after : Store}
    (h : annotationWith t ⟨classAt t n, aliasAt t n⟩ site e s =
      (.ok type, after)) :
    t.typingUnder marks m site.scope e = some type := by
  obtain ⟨-, after', hr, -⟩ := annotation_echoes hk (steadfast_wellFormed t)
    (levels_echo hk hnm) site ⟨site.scope, "", ""⟩ hsite rfl e s
    { Store.ofPackages [] "" with aliases := marks } hs hmarks type after h
  unfold Symbols.typingUnder
  rw [hr]
  rfl

/-- More levels and other marks make no difference to what comes out. -/
theorem typingUnder_mono {n m : Nat} (hnm : n ≤ m) {scope : Scope}
    (hscope : t.Has scope) {e : Expr} {marks marks' : List String}
    (hmarks : ∀ q, t.Unfolds scope e q → (q ∈ marks ↔ q ∈ marks'))
    {type : TypeRef} (h : t.typingUnder marks n scope e = some type) :
    t.typingUnder marks' m scope e = some type := by
  unfold Symbols.typingUnder at h ⊢
  rcases hr : annotationWith t (sketch t n) ⟨scope, "", ""⟩ e
    { Store.ofPackages [] "" with aliases := marks } with ⟨_ | type', after⟩ <;>
    rw [hr] at h
  · cases h
  · cases h
    obtain ⟨-, after', hr', -⟩ := annotation_echoes hk steadfast_always
      (sketch_echoes hk hnm) ⟨scope, "", ""⟩ ⟨scope, "", ""⟩ hscope rfl e
      { Store.ofPackages [] "" with aliases := marks }
      { Store.ofPackages [] "" with aliases := marks' } trivial
      hmarks type after hr
    rw [hr']
    rfl

end Types

/-- Whatever calls have come before, and for whichever declaration an annotation
is read: if it has a type while no alias is being expanded, then it has the type
by the text. So calls in two stores do not answer with different types. -/
theorem annotation_types_agree (p : Program) {s s' : Store} (hs : Reached p s)
    (hs' : Reached p s') (hidle : s.aliases = []) (hidle' : s'.aliases = [])
    {site site' : Site} (hsite : (Symbols.ofProgram p).Has site.scope)
    (hscope : site'.scope = site.scope) {e : Expr}
    {type type' : TypeRef} {after after' : Store}
    (h : Symbols.annotation (Symbols.ofProgram p) site e s = (.ok type, after))
    (h' : Symbols.annotation (Symbols.ofProgram p) site' e s' =
      (.ok type', after')) :
    type = type' ∧ (Symbols.ofProgram p).typing site.scope e = some type := by
  have hk := Symbols.keyed_ofProgram p
  have htext : ∀ {s : Store} {site : Site} {type : TypeRef} {after : Store},
      Reached p s → s.aliases = [] → (Symbols.ofProgram p).Has site.scope →
        Symbols.annotation (Symbols.ofProgram p) site e s = (.ok type, after) →
          (Symbols.ofProgram p).typing site.scope e = some type := by
    intro s site type after hs hidle hsite h
    refine typingUnder_of_answer hk (Nat.le_refl _)
      (sane_of_reached hs).wellFormed hsite ?_ h
    intro q _
    rw [hidle]
  have hfirst := htext hs hidle hsite h
  have hsecond := htext hs' hidle' (hscope ▸ hsite) h'
  rw [hscope, hfirst] at hsecond
  exact ⟨Option.some.inj hsecond, hfirst⟩

namespace Sample

theorem run_of_toOption {α : Type} {step : Resolve α} {s : Store} {a : α}
    (h : (step s).1.toOption = some a) : step s = (.ok a, (step s).2) :=
  Prod.ext (ok_of_toOption h) rfl

set_option maxRecDepth 10000 in
/-- A class that is first resolved by the call, and one that has been
resolved before. -/
theorem linked_types_agree :
    ∃ s s' after after', Reached linked s ∧ Reached linked s' ∧
    ¬s.IsResolved link.key ∧ s'.IsResolved link.key ∧
      Symbols.annotation (Symbols.ofProgram linked) ⟨link.scope, "main", "a"⟩
        (quoted "Link") s = (.ok (.struct link.key), after) ∧
      Symbols.annotation (Symbols.ofProgram linked) ⟨link.scope, "main", "b"⟩
        (quoted "Link") s' = (.ok (.struct link.key), after') ∧
      (Symbols.ofProgram linked).typing link.scope (quoted "Link") =
      some (.struct link.key) := by
  have hfresh : Reached linked freshStore := .start []
  obtain ⟨hsettled, -⟩ :=
    reached_settledStore (p := linked) rfl rfl declares_link
  have hwaits : ¬freshStore.IsResolved link.key := by
    unfold Store.IsResolved
    decide +kernel
  have hdone : (settledStore linked link).IsResolved link.key := by
    unfold Store.IsResolved
    decide +kernel
  have hread :
      (Symbols.annotation (Symbols.ofProgram linked) ⟨link.scope, "main", "a"⟩
        (quoted "Link")
      freshStore).1.toOption = some (.struct link.key) := by
    decide +kernel
  have hagain :
      (Symbols.annotation (Symbols.ofProgram linked) ⟨link.scope, "main", "b"⟩
        (quoted "Link")
      (settledStore linked link)).1.toOption = some (.struct link.key) := by
    decide +kernel
  have hidle : (settledStore linked link).aliases = [] := by
    decide +kernel
  have hanswer := run_of_toOption hread
  have hanswer' := run_of_toOption hagain
  have htypes :=
    @annotation_types_agree linked freshStore (settledStore linked link)
      hfresh hsettled
    rfl hidle ⟨link.scope, "main", "a"⟩ ⟨link.scope, "main", "b"⟩
      declares_link.inTree rfl
    (quoted "Link") (.struct link.key) (.struct link.key) _ _ hanswer hanswer'
  exact ⟨freshStore, settledStore linked link, _, _, hfresh, hsettled, hwaits,
    hdone, hanswer, hanswer', htypes.2⟩

end Sample

end BridgeBindings
