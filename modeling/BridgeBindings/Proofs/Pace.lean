import BridgeBindings.Proofs.Completion

/-!
# A run from a store that is ahead

Suppose that a resolution runs through, and that it is run again from a store in
which some structs have their fields already, together with all that they need.
The second run keeps pace with the first. Outside the territory of these structs
the two take the same steps; whenever the first one goes into the territory the
second has its answer at once, and what the first one does there changes nothing
outside. So the second one runs through as well.

Both give the same types, since a type names structs and not their fields. The
fields that a class takes from its bases are the same if the first run, wherever
it completed a struct of the territory, gave it the fields that it has in the
other store; `exact` says whether this is being assumed.
-/

namespace BridgeBindings

open Syntax

/-- The second store is ahead by the structs that have fields in `D`, and none
of these is being resolved. -/
structure Ahead (t : Symbols) (D : StructKey → Option Shape) (exact : Prop)
    (s s' : Store) : Prop where
  steady : Steady t s
  housed : Housed t s'
  classes : s'.classes = s.classes
  aliases : s'.aliases = s.aliases
  apart : ∀ k ∈ s.classes, D k = none
  done : ∀ k, D k ≠ none → s'.done k = D k
  same : ∀ k, D k = none → (s.done k = none ↔ s'.done k = none) ∧
      (exact → s'.done k = s.done k)

/-- What a run has completed has the fields of `D`, as far as these go. -/
def Agrees (D : StructKey → Option Shape) (exact : Prop) (s : Store) : Prop :=
  exact → ∀ k x x', s.done k = some x → D k = some x' → x = x'

theorem Agrees.earlier {D : StructKey → Option Shape}
    {exact : Prop} {s s' : Store} (h : Agrees D exact s') (hl : s.Later s') :
    Agrees D exact s :=
  fun he k x x' hx hx' => h he k x x' (hl.done k x hx) hx'

/-- A step whose second run keeps pace with the first, with answers that are
alike by `Q`. -/
structure KeepsPace (t : Symbols) (D : StructKey → Option Shape)
    (exact : Prop) {α : Type} (step step' : Resolve α) (Q : α → α → Prop) :
    Prop where
  later : ∀ s, Steady t s → ∀ a s₁, step s = (.ok a, s₁) →
    Steady t s₁ ∧ s.Later s₁
  follows : ∀ s s', Ahead t D exact s s' → ∀ a s₁, step s = (.ok a, s₁) →
    Agrees D exact s₁ → ∃ a' s₁', step' s' = (.ok a', s₁') ∧
    Ahead t D exact s₁ s₁' ∧ Q a a'

namespace KeepsPace

variable {t : Symbols} {D : StructKey → Option Shape}
  {exact : Prop} {α β γ : Type} {step step' : Resolve α} {Q : α → α → Prop}
  {R : β → β → Prop}

theorem pure {a a' : α} (h : Q a a') :
    KeepsPace t D exact (Pure.pure a) (Pure.pure a') Q := by
  refine ⟨fun s hs b s₁ hr => ?_, fun s s' hs b s₁ hr _ => ?_⟩
  · cases hr
    exact ⟨hs, .refl s⟩
  · cases hr
    exact ⟨a', s', rfl, hs, h⟩

theorem throw {e : Stop} : KeepsPace t D exact (MonadExcept.throw e) step' Q :=
  ⟨fun _ _ _ _ hr => (by cases hr), fun _ _ _ _ _ hr => (by cases hr)⟩

theorem bind {f f' : α → Resolve β} (hx : KeepsPace t D exact step step' Q)
    (hQ : ∀ a, Q a a)
    (hf : ∀ a a', Q a a' → KeepsPace t D exact (f a) (f' a') R) :
    KeepsPace t D exact (step >>= f) (step' >>= f') R := by
  refine ⟨fun s hs b s₂ hr => ?_, fun s s' hs b s₂ hr hagrees => ?_⟩
  · obtain ⟨a, s₁, hr, hr'⟩ := ok_of_bind hr
    obtain ⟨hs₁, hl⟩ := hx.later s hs a s₁ hr
    obtain ⟨hs₂, hl'⟩ := (hf a a (hQ a)).later s₁ hs₁ b s₂ hr'
    exact ⟨hs₂, hl.trans hl'⟩
  · obtain ⟨a, s₁, hr, hr'⟩ := ok_of_bind hr
    obtain ⟨hs₁, -⟩ := hx.later s hs.steady a s₁ hr
    obtain ⟨-, hl⟩ := (hf a a (hQ a)).later s₁ hs₁ b s₂ hr'
    obtain ⟨a', s₁', hr₁, hahead, hq⟩ :=
      hx.follows s s' hs a s₁ hr (hagrees.earlier hl)
    obtain ⟨b', s₂', hr₂, hahead', hb⟩ :=
      (hf a a' hq).follows s₁ s₁' hahead b s₂ hr' hagrees
    refine ⟨b', s₂', ?_, hahead', hb⟩
    rw [run_bind, hr₁]
    exact hr₂

theorem map {f : α → β} (hx : KeepsPace t D exact step step' Q)
    (hQ : ∀ a, Q a a) (hf : ∀ a a', Q a a' → R (f a) (f a')) :
    KeepsPace t D exact (f <$> step) (f <$> step') R := by
  rw [map_eq_pure_bind, map_eq_pure_bind]
  exact hx.bind hQ fun a a' h => KeepsPace.pure (hf a a' h)

theorem mapM {xs : List γ} {f f' : γ → Resolve α}
    (h : ∀ x ∈ xs, KeepsPace t D exact (f x) (f' x) Eq) :
    KeepsPace t D exact (xs.mapM f) (xs.mapM f') Eq := by
  induction xs with
  | nil => exact KeepsPace.pure rfl
  | cons x xs ih =>
      rw [List.mapM_cons, List.mapM_cons]
      have hrest := ih fun y hy => h y (List.mem_cons_of_mem x hy)
      refine (h x List.mem_cons_self).bind (fun _ => rfl) fun a a' ha => ?_
      exact hrest.bind (fun _ => rfl) fun as as' has =>
        KeepsPace.pure (by rw [ha, has])

theorem foldlM {xs : List γ} {f f' : β → γ → Resolve β} (hR : ∀ b, R b b)
    (h : ∀ x ∈ xs, ∀ b b', R b b' → KeepsPace t D exact (f b x) (f' b' x) R)
    {b b' : β} (hb : R b b') :
    KeepsPace t D exact (xs.foldlM f b) (xs.foldlM f' b') R := by
  induction xs generalizing b b' with
  | nil => exact KeepsPace.pure hb
  | cons x xs ih =>
      rw [List.foldlM_cons, List.foldlM_cons]
      exact (h x List.mem_cons_self b b' hb).bind hR fun b b' hb =>
        ih (fun y hy => h y (List.mem_cons_of_mem x hy)) hb

end KeepsPace

section Pace

variable {t : Symbols} {D : StructKey → Option Shape} {exact : Prop}

theorem Ahead.unseen {s s' u u' : Store} (h : Ahead t D exact s s')
    (hu : s.Unseen u) (hu' : s'.Unseen u') (hh : Housed t u)
    (hh' : Housed t u') : Ahead t D exact u u' where
  steady := hu.steady hh h.steady
  housed := hh'
  classes := (hu'.classes.trans h.classes).trans hu.classes.symm
  aliases := (hu'.aliases.trans h.aliases).trans hu.aliases.symm
  apart := by rw [hu.classes]; exact h.apart
  done k hk := (hu'.done k).trans (h.done k hk)
  same k hk := by rw [hu.done, hu'.done]; exact h.same k hk

/-- A change that resolutions do not see. -/
theorem modify_pace {f : Store → Store}
    (hf : ∀ s, Housed t s → Housed t (f s) ∧ s.Unseen (f s)) :
    KeepsPace t D exact (modify f : Resolve Unit) (modify f) Eq := by
  refine ⟨fun s hs _ s₁ hr => ?_, fun s s' hs _ s₁ hr _ => ?_⟩
  · cases hr
    obtain ⟨hh, hu⟩ := hf s hs.housed
    exact ⟨hu.steady hh hs, hu.later⟩
  · cases hr
    obtain ⟨hh, hu⟩ := hf s hs.steady.housed
    obtain ⟨hh', hu'⟩ := hf s' hs.housed
    exact ⟨(), f s', rfl, hs.unseen hu hu' hh hh', rfl⟩

/-! ## Annotations -/

section Reading

variable {site : Site} {names : Names}

theorem Plan.run_pace {α : Type} (p : Plan α)
    (h : ∀ q, KeepsPace t D exact (names.answer q) (names.answer q) Eq) :
    KeepsPace t D exact (p.run names) (p.run names) Eq := by
  refine (KeepsPace.mapM fun q _ => h q).bind (fun _ => rfl)
    fun types types' htypes => ?_
  rw [htypes]
  cases p.ending with
  | ok f => exact KeepsPace.pure rfl
  | error f => exact KeepsPace.throw

theorem readExpr_pace
    (h : ∀ q, KeepsPace t D exact (names.answer q) (names.answer q) Eq)
    (e : Expr) :
    KeepsPace t D exact (readExpr names site e) (readExpr names site e) Eq := by
  obtain ⟨p, hp, _⟩ := (readExpr_follows site).1 e
  rw [show readExpr names site e = p.run names from hp _]
  exact p.run_pace h

variable {named : Nat → String → Resolve TypeRef}
  (h : ∀ row dotted, KeepsPace t D exact (named row dotted)
    (named row dotted) Eq)

include h

theorem readText_pace (levels row : Nat) (text : String) :
    KeepsPace t D exact (readText named site levels row text)
      (readText named site levels row text) Eq := by
  induction levels generalizing row text with
  | zero => exact KeepsPace.throw
  | succ levels ih =>
      rw [readText.eq_def]
      dsimp only
      cases readExpression (Text.trim text) with
      | error _ => exact KeepsPace.throw
      | ok e =>
          refine (readExpr_pace (fun q => ?_) e).map
            (fun _ => rfl) fun _ _ hr => by rw [hr]
          rcases q with ⟨row, dotted | text⟩
          · exact h row dotted
          · exact ih row text

theorem readAnnotation_pace (e : Expr) :
    KeepsPace t D exact (annotationType named site e)
      (annotationType named site e) Eq := by
  refine (readExpr_pace (fun q => ?_) e).map (fun _ => rfl) fun _ _ hr =>
    by rw [hr]
  rcases q with ⟨row, dotted | text⟩
  · exact h row dotted
  · dsimp only [Names.answer]
    exact readText_pace h _ row text

end Reading

/-! ## Fields -/

/-- Two answers for a class: the fields are the same when that is assumed. -/
structure StructAlike (exact : Prop) (st st' : Struct) : Prop where
  package : st'.package = st.package
  name : st'.name = st.name
  fields : exact → shapeOf st'.fields = shapeOf st.fields

theorem StructAlike.refl (exact : Prop) (st : Struct) :
    StructAlike exact st st :=
  ⟨rfl, rfl, fun _ => rfl⟩

/-- Fields under their names, by name and type. -/
def outline (fields : Table StructField) : Table (String × TypeRef) :=
  fields.map fun f => (f.name, f.type)

/-- Two tables say the same of the fields, if that is asked for (`exact`). -/
def TableAlike (exact : Prop) (fields fields' : Table StructField) : Prop :=
  exact → outline fields' = outline fields

theorem outline_inheritFields (fields : Table StructField)
    (inherited : List StructField) : outline (inheritFields fields inherited) =
      (shapeOf inherited).foldl (fun fields f => fields.insertNew f.1 f)
      (outline fields) := by
  unfold inheritFields
  induction inherited generalizing fields with
  | nil => rfl
  | cons f inherited ih =>
      rw [List.foldl_cons, ih]
      unfold outline
      rw [Table.map_insertNew]
      rfl

theorem shapeOf_values (fields : Table StructField) :
    shapeOf fields.values = (outline fields).values :=
  (Table.values_map _ fields).symm

/-- An expansion whose second run keeps pace. -/
structure Expansion.Paces (expand : Expansion) (t : Symbols)
    (D : StructKey → Option Shape) (exact : Prop) : Prop where
  cls : ∀ c, t.Declares c →
    KeepsPace t D exact (expand.cls c) (expand.cls c) (StructAlike exact)
  aliased : ∀ site scope name value, t.DeclaresAlias scope name value →
    KeepsPace t D exact (expand.aliased site scope name value)
      (expand.aliased site scope name value) Eq

variable {expand : Expansion}

theorem structRef_pace (h : expand.Paces t D exact) (owner : String)
    {c : ProgramClass} (hc : t.Declares c) :
    KeepsPace t D exact (structRef expand owner c)
      (structRef expand owner c) Eq := by
  refine (h.cls c hc).bind (StructAlike.refl exact) fun st st' hst => ?_
  refine (modify_pace (addReference_unseen owner c.package)).bind
    (fun _ => rfl) fun _ _ _ => ?_
  exact KeepsPace.pure (by rw [hst.package, hst.name])

theorem namedType_pace (hk : t.Keyed) (h : expand.Paces t D exact) {site : Site}
    (hs : t.Has site.scope) (row : Nat) (dotted : String) :
    KeepsPace t D exact (namedType t expand site row dotted)
      (namedType t expand site row dotted) Eq := by
  unfold namedType
  split
  · exact KeepsPace.throw
  · exact (modify_pace (addUnresolved_unseen site.owner _)).bind
      (fun _ => rfl) fun _ _ _ => KeepsPace.pure rfl
  · next hl => exact h.aliased _ _ _ _ (Symbols.owns_lookup hk hs hl)
  · next hl =>
      split
      · exact KeepsPace.pure rfl
      · exact structRef_pace h _ (Symbols.owns_lookup hk hs hl)
  · exact KeepsPace.throw

theorem annotation_pace (hk : t.Keyed)
    (h : expand.Paces t D exact) (site : Site)
    (hs : t.Has site.scope) (e : Expr) :
    KeepsPace t D exact (annotationWith t expand site e)
      (annotationWith t expand site e) Eq :=
  readAnnotation_pace (fun row dotted => namedType_pace hk h hs row dotted) e

theorem collectFields_pace (hk : t.Keyed) (h : expand.Paces t D exact)
    {c : ProgramClass} (hc : t.Declares c) :
    KeepsPace t D exact (collectFields t expand c) (collectFields t expand c)
      fun fields fields' => exact → shapeOf fields' = shapeOf fields := by
  have hrefl : ∀ fields, TableAlike exact fields fields := fun _ _ => rfl
  have hbases : KeepsPace t D exact (baseFields expand (t.bases c))
      (baseFields expand (t.bases c)) (TableAlike exact) := by
    refine KeepsPace.foldlM hrefl
      (fun b hb fields fields' hfields => ?_) (hrefl _)
    refine (h.cls b (Symbols.declares_bases hk hc hb)).bind
      (StructAlike.refl exact) fun st st' hst => KeepsPace.pure fun he => ?_
    rw [outline_inheritFields, outline_inheritFields, hfields he, hst.fields he]
  have hown : ∀ f, KeepsPace t D exact (ownField t expand c f)
      (ownField t expand c f) Eq :=
    fun f => (annotation_pace hk h _ hc.inTree f.typeExpr).bind
      (fun _ => rfl) fun _ _ ht => KeepsPace.pure (by rw [ht])
  refine hbases.bind hrefl fun inherited inherited' hinherited => ?_
  refine (KeepsPace.foldlM hrefl (fun f _ fields fields' hfields => ?_)
    hinherited).bind hrefl fun fields fields' hfields =>
    KeepsPace.pure fun he => ?_
  · refine (hown f).bind (fun _ => rfl) fun own own' hsame =>
      KeepsPace.pure fun he => ?_
    unfold outline
    rw [Table.map_insert, Table.map_insert, ← hsame]
    exact congrArg (·.insert f.name (own.name, own.type)) (hfields he)
  · rw [shapeOf_values, shapeOf_values, hfields he]

/-! ## Classes and aliases -/

/-- The set of the structs that the second store is ahead by. -/
def Done (D : StructKey → Option Shape) (k : StructKey) : Prop := D k ≠ none

theorem Ahead.ahead_steady {s s' : Store} (h : Ahead t D exact s s') :
    Steady t s' := by
  refine ⟨h.housed, fun k hk => ?_⟩
  rw [h.classes] at hk
  exact ((h.same k (h.apart k hk)).1).mp (h.steady.waiting k hk)

theorem structOf_alike (hd : t.Distinct) {s s' : Store} (h : Housed t s)
    (h' : Housed t s') {c : ProgramClass} (hc : t.Declares c)
    (hdone : exact → s'.done c.key = s.done c.key) :
    StructAlike exact (s.structOf c) (s'.structOf c) := by
  obtain ⟨hpackage, hname, -, hfields, -⟩ := h.structOf hd hc
  obtain ⟨hpackage', hname', -, hfields', -⟩ := h'.structOf hd hc
  refine ⟨hpackage'.trans hpackage.symm, hname'.trans hname.symm, fun he => ?_⟩
  rw [hfields, hfields', hdone he]

/-- A class of the territory: the second run has its struct already. -/
theorem resolveClass_ahead (hk : t.Keyed) (hd : t.Distinct)
    (hin : expand.Completes t (Done D) fun _ => True)
    (hterritory : Territory t (Done D)) {c : ProgramClass} (hc : t.Declares c)
    (hD : Done D c.key) {s s' s₁ : Store} {st : Struct}
    (h : Ahead t D exact s s') (hr : resolveClass t expand c s = (.ok st, s₁))
    (hagrees : Agrees D exact s₁) :
    ∃ st' s₁', resolveClass t expand c s' = (.ok st', s₁') ∧
    Ahead t D exact s₁ s₁' ∧
      StructAlike exact st st' := by
  -- the first run works within the territory, which is done in the second
  -- already, so all that it changes the second run has
  have hkeeps := resolveClass_completes hk hd hin hterritory hc hD s h.steady
    fun _ _ _ hold => absurd trivial hold
  rw [hr] at hkeeps
  obtain ⟨⟨hl, hout⟩, hs₁, -, hanswer⟩ := hkeeps
  have ha : s'.answers c := .inl (by rw [h.done c.key hD]; exact hD)
  have hu := unseen_registered h.housed c
  obtain ⟨hpackage, hname, -, hfields, -⟩ := h.housed.structOf hd hc
  refine ⟨_, _, (resolveClass_run hd h.housed expand hc).1 ha, ?_, ?_⟩
  · refine ⟨hs₁, h.housed.register hd hc, ?_, ?_, ?_, ?_, ?_⟩
    · rw [hu.classes, h.classes, hl.classes]
    · rw [hu.aliases, h.aliases, hl.aliases]
    · rw [hl.classes]
      exact h.apart
    · exact fun k hk => (hu.done k).trans (h.done k hk)
    · intro k hk
      rw [hout k (fun hn => hn hk), hu.done]
      exact h.same k hk
  · refine ⟨hpackage.trans hanswer.package.symm, hname.trans hanswer.name.symm,
      fun he => ?_⟩
    obtain ⟨x, hx⟩ := Option.ne_none_iff_exists'.mp hD
    rw [hfields, h.done c.key hD, hx]
    rcases hanswer.fields with hst | ⟨hmem, -⟩
    · exact (hagrees he c.key _ x hst hx).symm
    · rw [hl.classes] at hmem
      exact absurd (h.apart _ hmem) hD

theorem registered_self (s : Store) (c : ProgramClass) :
    Registered c.key ((s.registered c).entering c.key) := by
  refine ⟨s.structOf c, ?_⟩
  show (s.registered c).get? c.key = _
  rw [Store.get?_registered, if_pos rfl]

theorem Ahead.entering {s s' : Store} {k : StructKey} (h : Ahead t D exact s s')
    (hD : D k = none) (hk : s.done k = none) :
    Ahead t D exact (s.entering k) (s'.entering k) := by
  refine ⟨entering_steady h.steady hk, h.housed.of_drafts rfl, ?_, h.aliases,
    fun k' hk' => ?_, h.done, h.same⟩
  · exact congrArg (k :: ·) h.classes
  · rcases List.mem_cons.mp hk' with rfl | hk'
    · exact hD
    · exact h.apart k' hk'

theorem Ahead.finishing {s s₁ s₁' : Store} {c : ProgramClass}
    {fields fields' : List StructField} (h : Ahead t D exact s₁ s₁')
    (hD : D c.key = none) (hm : s₁.classes = (s.entering c.key).classes)
    (hopen : c.key ∉ s.classes) (hreg : Registered c.key s₁)
    (hreg' : Registered c.key s₁')
    (hfields : exact → shapeOf fields' = shapeOf fields) :
    Ahead t D exact (s₁.finishing c fields) (s₁'.finishing c fields') := by
  have hclasses : (s₁.finishing c fields).classes = s.classes :=
    leaving_classes hm
  refine ⟨finishing_steady h.steady hm hopen hreg fields,
    (Housed.complete (h.housed.of_drafts rfl) hreg' fields').of_drafts rfl, ?_,
    h.aliases, fun k hk => ?_, fun k hk => ?_, fun k hk => ?_⟩
  · exact congrArg (List.erase · c.key) h.classes
  · rw [hclasses] at hk
    exact h.apart k (by rw [hm]; exact List.mem_cons_of_mem _ hk)
  · have hne : k ≠ c.key := fun he => hk (he ▸ hD)
    rw [done_finishing hreg', if_neg hne]
    exact h.done k hk
  · rw [done_finishing hreg, done_finishing hreg']
    split
    · exact ⟨iff_of_false (Option.some_ne_none _) (Option.some_ne_none _),
        fun he => by rw [hfields he]⟩
    · exact h.same k hk

/-- A class that both runs complete. -/
theorem resolveClass_beside (hk : t.Keyed) (hd : t.Distinct)
    (hexpand : expand.Paces t D exact) {c : ProgramClass} (hc : t.Declares c)
    (hD : D c.key = none) {s s' s₁ : Store} {st : Struct}
    (h : Ahead t D exact s s') (hr : resolveClass t expand c s = (.ok st, s₁))
    (hagrees : Agrees D exact s₁) :
    ∃ st' s₁', resolveClass t expand c s' = (.ok st', s₁') ∧
    Ahead t D exact s₁ s₁' ∧
      StructAlike exact st st' := by
  have hu := unseen_registered h.steady.housed c
  have hu' := unseen_registered h.housed c
  have hregistered : Ahead t D exact (s.registered c) (s'.registered c) :=
    h.unseen hu hu' (h.steady.housed.register hd hc) (h.housed.register hd hc)
  have halike :=
    structOf_alike hd h.steady.housed h.housed hc (h.same c.key hD).2
  have hiff : s.answers c ↔ s'.answers c := by
    unfold Store.answers
    rw [h.classes]
    exact or_congr_left (not_congr (h.same c.key hD).1)
  obtain ⟨hanswered, hentered⟩ := resolveClass_run hd h.steady.housed expand hc
  obtain ⟨hanswered', hentered'⟩ := resolveClass_run hd h.housed expand hc
  -- outside of the territory both runs have done the same, so the class answers
  -- at once in both or in neither
  by_cases ha : s.answers c
  · rw [hanswered ha] at hr
    cases hr
    exact ⟨_, _, hanswered' (hiff.mp ha), hregistered, halike⟩
  obtain ⟨hblank, hopen⟩ := not_or.mp ha
  have hentering :=
    hregistered.entering hD ((hu.done _).trans (not_not.mp hblank))
  rw [hentered ha] at hr
  rw [hentered' fun ha' => ha (hiff.mpr ha')]
  rcases hcollect : collectFields t expand c ((s.registered c).entering c.key)
    with ⟨e | fields, s₂⟩ <;> rw [hcollect] at hr
  · cases hr
  cases hr
  obtain ⟨-, hl⟩ :=
    (collectFields_pace hk hexpand hc).later _ hentering.steady _ _ hcollect
  have hreg : Registered c.key s₂ := hl.structs c.key (registered_self s c)
  have hagrees₂ : Agrees D exact s₂ := by
    intro he k x x' hx hx'
    have hne : k ≠ c.key := fun he => by rw [he, hD] at hx'; cases hx'
    refine hagrees he k x x' ?_ hx'
    rw [done_finishing hreg, if_neg hne]
    exact hx
  obtain ⟨fields', s₂', hcollect', hahead, hfields⟩ :=
    (collectFields_pace hk hexpand hc).follows _ _ hentering _ _
      hcollect hagrees₂
  obtain ⟨-, hl'⟩ :=
    (collectFields_pace hk hexpand hc).later _
      hentering.ahead_steady _ _ hcollect'
  have hreg' : Registered c.key s₂' := hl'.structs c.key (registered_self s' c)
  rw [hcollect']
  refine ⟨_, _, rfl, hahead.finishing hD hl.classes ?_ hreg hreg' hfields,
    halike.package, halike.name, hfields⟩
  rw [hu.classes]
  exact hopen

theorem resolveClass_pace (hk : t.Keyed) (hd : t.Distinct)
    (hin : expand.Completes t (Done D) fun _ => True)
    (hterritory : Territory t (Done D))
    (hall : expand.Completes t (fun _ => True) fun _ => True)
    (hexpand : expand.Paces t D exact) {c : ProgramClass} (hc : t.Declares c) :
    KeepsPace t D exact (resolveClass t expand c) (resolveClass t expand c)
      (StructAlike exact) := by
  refine ⟨fun s hs st s₁ hr => ?_, fun s s' h st s₁ hr hagrees => ?_⟩
  · have hkeeps := resolveClass_completes hk hd hall (fun _ _ _ _ _ => trivial)
      hc trivial s hs fun _ _ _ hold => absurd trivial hold
    rw [hr] at hkeeps
    exact ⟨hkeeps.2.1, hkeeps.1.1⟩
  · by_cases hD : D c.key = none
    · exact resolveClass_beside hk hd hexpand hc hD h hr hagrees
    · exact resolveClass_ahead hk hd hin hterritory hc hD h hr hagrees

theorem withAlias_pace {α : Type} {Q : α → α → Prop} {step : Resolve α}
    (name : String) (h : KeepsPace t D exact step step Q) :
    KeepsPace t D exact (Resolve.withAlias name step)
      (Resolve.withAlias name step) Q := by
  refine ⟨fun s hs a s₁ hr => ?_, fun s s' hs a s₁ hr hagrees => ?_⟩ <;>
    rw [withAlias_run] at hr
  · have hinner : Steady t (s.expanding name) :=
      ⟨hs.housed.of_drafts rfl, hs.waiting⟩
    rcases hstep : step (s.expanding name) with ⟨e | b, s₂⟩ <;>
      rw [hstep] at hr <;> cases hr
    obtain ⟨hs₂, hl⟩ := h.later _ hinner _ _ hstep
    exact ⟨⟨hs₂.housed.of_drafts rfl, hs₂.waiting⟩,
      hl.classes, leaving_aliases hl.aliases, hl.structs, hl.done⟩
  · have hinner : Ahead t D exact (s.expanding name) (s'.expanding name) :=
      ⟨⟨hs.steady.housed.of_drafts rfl, hs.steady.waiting⟩,
        hs.housed.of_drafts rfl, hs.classes, congrArg (name :: ·) hs.aliases,
        hs.apart, hs.done, hs.same⟩
    rcases hstep : step (s.expanding name) with ⟨e | b, s₂⟩ <;>
      rw [hstep] at hr <;> cases hr
    obtain ⟨a', s₂', hstep', hs₂, hq⟩ := h.follows _ _ hinner _ _ hstep hagrees
    refine ⟨a', s₂'.expanded name, by rw [withAlias_run, hstep'], ?_, hq⟩
    exact ⟨⟨hs₂.steady.housed.of_drafts rfl, hs₂.steady.waiting⟩,
      hs₂.housed.of_drafts rfl, hs₂.classes,
      congrArg (List.erase · name) hs₂.aliases, hs₂.apart, hs₂.done, hs₂.same⟩

theorem expandAlias_pace (hk : t.Keyed) (h : expand.Paces t D exact)
    (site : Site) {scope : Scope} {name : String} {value : Expr}
    (ha : t.DeclaresAlias scope name value) :
    KeepsPace t D exact (expandAlias t expand site scope name value)
      (expandAlias t expand site scope name value) Eq := by
  have hinner := withAlias_pace (scope.module ++ "." ++ name)
    (annotation_pace hk h { site with scope := scope } ha.inTree value)
  refine ⟨fun s hs type s₁ hr => ?_, fun s s' hs type s₁ hr hagrees => ?_⟩
  · rw [expandAlias_run] at hr
    split at hr
    · cases hr
      exact ⟨hs, .refl s⟩
    · exact hinner.later s hs type s₁ hr
  · rw [expandAlias_run] at hr
    rw [expandAlias_run, hs.aliases]
    split at hr
    · next hguard =>
        cases hr
        rw [if_pos hguard]
        exact ⟨_, _, rfl, hs, rfl⟩
    · next hguard =>
        rw [if_neg hguard]
        exact hinner.follows s s' hs type s₁ hr hagrees

end Pace

/-! ## All levels -/

theorem levels_pace {t : Symbols} (hk : t.Keyed) (hd : t.Distinct)
    {D : StructKey → Option Shape} (exact : Prop)
    (hterritory : Territory t (Done D)) (n : Nat) :
    Expansion.Paces ⟨classAt t n, aliasAt t n⟩ t D exact := by
  induction n with
  | zero => exact ⟨fun _ _ => KeepsPace.throw, fun _ _ _ _ _ => KeepsPace.throw⟩
  | succ n ih =>
      rw [levels_succ]
      refine ⟨fun c hc => ?_, fun site scope name value ha => ?_⟩
      · exact resolveClass_pace hk hd
          (levels_complete hk hd hterritory _ n) hterritory
          (levels_complete hk hd (fun _ _ _ _ _ => trivial) _ n) ih hc
      · exact expandAlias_pace hk ih site ha

end BridgeBindings
