import BridgeBindings.Proofs.Provenance
import BridgeBindings.Proofs.Reachability

/-!
# The methods of the surface

A bound class describes all its methods before it adds the first of them to its
package, so a class that fails adds none, and one that does not fail adds what
it answers. Hence the methods that packages have are all on the surface, and
what they mention is known to the package that they are bound in.
-/

namespace BridgeBindings

open Syntax

/-! ## Steps of which only the end matters -/

namespace Contract

/-- The contract that asks for nothing. -/
def free : Contract :=
  ⟨fun _ => True, fun _ _ => True, fun _ => trivial, fun _ _ => trivial⟩

end Contract

namespace Keeps

variable {ε α γ : Type} {C : Contract} {E : ε → Prop} {P : Store → Prop}
  {step : ExceptT ε (StateM Store) α} {Q : α → Store → Prop}

/-- What is known of a step whether it faults or not. -/
theorem attempt {step : Resolve α} {E : Stop → Prop}
    {Q : Except TypeFault α → Store → Prop} (h : ∀ s, P s → match step s with
      | (.ok a, s) => Q (.ok a) s
      | (.error (.fault f), s) => Q (.error f) s
      | (.error stop, _) => E stop) :
    Keeps .free E P step.attempt Q := by
  intro s _ hp
  refine ⟨trivial, trivial, ?_⟩
  have := h s hp
  unfold Resolve.attempt
  rcases hr : step s with ⟨(f | b | _) | a, s'⟩ <;>
    rw [hr] at this <;> exact this

/-- A loop keeps what each turn of it keeps. -/
theorem forIn {xs : List γ} {f : γ → ExceptT ε (StateM Store) PUnit}
    {J : Store → Prop} (hf : ∀ x ∈ xs, Keeps C E J (f x) fun _ => J) :
    Keeps C E J (ForIn.forIn xs PUnit.unit fun x _ => do
      f x
      Pure.pure (ForInStep.yield PUnit.unit)) fun _ => J := by
  induction xs with
  | nil =>
      rw [List.forIn_nil]
      exact Keeps.pure fun _ _ h => h
  | cons x xs ih =>
      rw [List.forIn_cons, bind_assoc]
      refine (hf x List.mem_cons_self).bind fun _ => ?_
      rw [pure_bind]
      exact ih fun y hy => hf y (List.mem_cons_of_mem x hy)

end Keeps

/-! ## The classes of a surface -/

namespace Symbols

section Declared

variable {t : Symbols} (hk : t.Keyed)

include hk

theorem declares_classOfCall {scope : Scope} {func : Expr} {c : ProgramClass}
    (hs : t.Has scope) (h : t.classOfCall scope func = some c) :
    t.Declares c := by
  unfold classOfCall at h
  split at h
  · next hl =>
      cases h
      obtain ⟨dotted, _, hd⟩ := Option.bind_eq_some_iff.mp hl
      exact owns_lookup hk hs hd
  · next hl =>
      obtain ⟨dotted, _, hd⟩ := Option.bind_eq_some_iff.mp hl
      obtain ⟨name, _, hc⟩ := Option.bind_eq_some_iff.mp h
      exact declares_lookupClass hk (owns_lookup hk hs hd) hc
  · cases h

theorem declares_classOfWithin {scope : Scope} {calls : BridgeCalls}
    {names : Nat} {e : Expr} {c : ProgramClass} (hs : t.Has scope)
    (h : t.classOfWithin scope calls names e = some c) : t.Declares c := by
  fun_induction t.classOfWithin scope calls names e with
  | case1 => exact declares_classOfCall hk hs h
  | case2 _ _ _ _ hc =>
      cases h
      obtain ⟨_, _, he⟩ := Option.bind_eq_some_iff.mp hc
      obtain ⟨_, _, hd⟩ := Option.bind_eq_some_iff.mp he
      exact declares_lookupClass hk hs hd
  | case3 _ _ _ _ _ _ ih => exact ih h
  | case4 => cases h
  | case5 => cases h

theorem declares_chainAt {levels : Nat} {seen : List String}
    {c d : ProgramClass} (hc : t.Declares c)
    (hd : d ∈ (t.chainAt levels seen c).1) : t.Declares d := by
  induction levels generalizing seen c d with
  | zero => exact absurd hd List.not_mem_nil
  | succ levels ih =>
      rw [chainAt] at hd
      split at hd
      · exact absurd hd List.not_mem_nil
      · rcases List.mem_append.mp hd with hd | hd
        · -- the bases followed so far bring declared classes only
          refine List.foldlRecOn
            (motive := fun (acc : List ProgramClass × List String) =>
              ∀ x ∈ acc.1, t.Declares x) _ _
            (fun x hx => absurd hx List.not_mem_nil)
            (fun acc hacc b hb x hx => ?_) d hd
          rcases List.mem_append.mp hx with hx | hx
          · exact hacc x hx
          · exact ih (declares_bases hk hc hb) hx
        · rw [List.mem_singleton.mp hd]
          exact hc

end Declared

end Symbols

/-! ## Describing -/

/-- The descriptions of the public methods of a class, by name. -/
def Symbols.describedMethods (t : Symbols) (c : ProgramClass) :
    Resolve (Table BoundMethod) :=
  (t.classChain c).foldlM (t.describeAll c.key) .empty

/-- The public methods of a class and its bases, in the order in which they are
described. -/
def Symbols.methodsAlong (t : Symbols) (c : ProgramClass) :
    List (ProgramClass × FunctionDef) :=
  (t.classChain c).flatMap fun d => d.decl.publicMethods.map fun f => (d, f)

/-- Adds methods that have been described to a package. -/
def addDescribed (package : String) (described : Table BoundMethod) :
    Resolve (List BoundMethod) := do
  let methods :=
    (described.entries.mergeSort fun a b => decide (a.1 ≤ b.1)).map (·.2)
  for m in methods do
    Resolve.changeDraft package (·.addMethod m)
  return methods

theorem boundMethods_eq (t : Symbols) (c : ProgramClass) :
    t.boundMethods c = t.describedMethods c >>= addDescribed c.package := rfl

section Describing

variable {t : Symbols} (hk : t.Keyed)

include hk

theorem annotation?_sound (site : Site) (hs : t.Has site.scope)
    (e : Option Expr) : Keeps (sound t) AnyStop Always (t.annotation? site e)
      fun type s => Refers (Imported site.owner) type.structRefs s := by
  cases e with
  | none => exact Keeps.pure fun s _ _ => refers_nil rfl s
  | some e => exact annotation_sound hk (levels_sound hk _) site hs e

theorem describe_sound {declarer : ProgramClass} (hd : t.Declares declarer)
    (owner : StructKey) (f : FunctionDef) :
    Keeps (sound t) AnyStop Always (t.describe declarer owner f)
      fun m s => Refers (Imported owner.package) m.structRefs s := by
  unfold Symbols.describe
  extract_lets site
  have hstable :
      ∀ keys, (sound t).Stable (Refers (Imported owner.package) keys) :=
    fun keys _ _ hg h k hk => (h k hk).adds hg.drafts
  refine (Keeps.mapM
    (R := fun _ p => Refers (Imported owner.package) p.type.structRefs)
    (fun _ p => hstable _) fun p _ => ?_).bind fun params => ?_
  · exact (annotation?_sound hk (site _) hd.inTree _).bind fun _ =>
      Keeps.pure fun _ _ h => ⟨trivial, h⟩
  have hparams :
      ∀ s, List.Forall₂
        (fun _ p => Refers (Imported owner.package) p.type.structRefs s)
      (Symbols.callerParams f) params →
      Refers (Imported owner.package)
        (params.flatMap (·.type.structRefs)) s := by
    intro s h k hk
    obtain ⟨p, hp, hk⟩ := List.mem_flatMap.mp hk
    obtain ⟨_, _, hr⟩ := forall₂_right h hp
    exact hr k hk
  extract_lets build
  have hbuild : ∀ result : Option TypeRef, Keeps (sound t) AnyStop
      (fun s => Refers (Imported owner.package)
        (params.flatMap (·.type.structRefs)) s ∧
        Refers (Imported owner.package)
          (result.toList.flatMap (·.structRefs)) s) (build result)
      fun m s => Refers (Imported owner.package) m.structRefs s := fun result =>
    Keeps.pure fun s _ h k hk => (List.mem_append.mp hk).elim (h.1 k) (h.2 k)
  refine .ite (fun _ => ?_) fun _ => ?_
  · rw [pure_bind]
    exact (hbuild none).pre fun s _ h => ⟨hparams s h.2, refers_nil rfl s⟩
  · have hresult : Keeps (sound t) AnyStop Always
        (some <$> t.annotation? (site (Symbols.resultLabel owner f)) f.returns)
        fun result s =>
          Refers (Imported owner.package)
            (result.toList.flatMap (·.structRefs)) s :=
      (annotation?_sound hk (site _) hd.inTree _).map fun type s _ h => by
        simpa using h
    refine ((hresult.carry (hstable (params.flatMap (·.type.structRefs)))).pre
      fun s _ h => ⟨trivial, hparams s h.2⟩).bind fun result => ?_
    exact (hbuild result).pre fun _ _ h => h.symm

omit hk in
/-- What describing the methods of a class one after the other keeps. It may
depend on those that are described. -/
theorem describedMethods_keeps {C : Contract} {E : Stop → Prop}
    {J : List (ProgramClass × FunctionDef) → Table BoundMethod → Store → Prop}
    {c : ProgramClass}
    (hnames : ∀ d ∈ t.classChain c, ∀ b, d.decl.methodBreakdown? = some b →
      E (.broken b))
    (hdescribe : ∀ done methods, ∀ d ∈ t.classChain c,
      ∀ f ∈ d.decl.publicMethods,
        Keeps C E (J done methods) (t.describe d c.key f)
        fun m => J (done ++ [(d, f)]) (methods.insert f.name m)) :
    Keeps C E (J [] .empty) (t.describedMethods c) (J (t.methodsAlong c)) := by
  let among (ds : List ProgramClass) :=
    ds.flatMap fun d => d.decl.publicMethods.map fun f => (d, f)
  refine Keeps.foldlM_done (J := fun ds => J (among ds))
    (fun done d hd methods => ?_) [] .empty
  refine (Keeps.expect (hnames d hd)).bind fun _ => ?_
  have hstep : ∀ fs f, f ∈ d.decl.publicMethods → ∀ methods,
      Keeps C E (J (among done ++ fs.map fun f => (d, f)) methods)
        (do return methods.insert f.name (← t.describe d c.key f))
        (J (among done ++ (fs ++ [f]).map fun f => (d, f))) := by
    intro fs f hf methods
    simp only [List.map_append, List.map_singleton, ← List.append_assoc]
    exact (hdescribe _ methods d hd f hf).bind fun m =>
      Keeps.pure fun _ _ h => h
  have hinner := Keeps.foldlM_done hstep [] methods
  simp only [List.map_nil, List.append_nil, List.nil_append] at hinner
  refine (hinner.pre fun _ _ h => h.1).post fun _ _ _ h => ?_
  simpa only [among, List.flatMap_append, List.flatMap_singleton] using h

/-- What the methods of a bound class mention is known to its package. -/
theorem describedMethods_sound {c : ProgramClass} (hc : t.Declares c) :
    Keeps (sound t) AnyStop Always (t.describedMethods c) fun methods s =>
      ∀ e ∈ methods.entries, Refers (Imported c.package) e.2.structRefs s := by
  refine (describedMethods_keeps (J := fun _ methods s => ∀ e ∈ methods.entries,
    Refers (Imported c.package) e.2.structRefs s) (fun _ _ _ _ => trivial)
      fun _ methods d hd f _ => ?_).pre fun s _ _ e he =>
      absurd he List.not_mem_nil
  have hstable : (sound t).Stable fun s => ∀ e ∈ methods.entries,
      Refers (Imported c.package) e.2.structRefs s :=
    fun hg h e he k hk => (h e he k hk).adds hg.drafts
  have hd := Symbols.declares_chainAt hk hc hd
  refine (((describe_sound hk hd c.key f).carry hstable).pre fun _ _ h =>
    ⟨trivial, h⟩).post fun m s _ h e he => ?_
  rcases Table.mem_insert he with rfl | he
  · exact h.1
  · exact h.2 e he

end Describing

/-! ## Adding -/

/-- The methods that packages have are all among these. -/
def Covered (methods : List BoundMethod) (s : Store) : Prop :=
  ∀ p, ∀ m ∈ (s.draft p).methods.values, m ∈ methods

/-- A store in order, with these methods and no others. -/
structure Filled (t : Symbols) (methods : List BoundMethod) (s : Store) :
    Prop where
  wellFormed : WellFormed t s
  covered : Covered methods s

theorem Covered.mono {methods methods' : List BoundMethod} {s : Store}
    (h : Covered methods s) (hm : ∀ m ∈ methods, m ∈ methods') :
    Covered methods' s :=
  fun p m h' => hm m (h p m h')

theorem Covered.adds {methods : List BoundMethod} {s s' : Store}
    (ha : s.Adds s') (h : Covered methods s) : Covered methods s' := by
  intro p m hm
  rw [(ha p).methods] at hm
  exact h p m hm

theorem Filled.of_drafts {t : Symbols} {methods : List BoundMethod}
    {s s' : Store} (h : Filled t methods s) (hd : s'.drafts = s.drafts) :
    Filled t methods s' :=
  ⟨h.wellFormed.of_drafts hd, h.covered.adds (Store.adds_of_drafts hd)⟩

namespace Store

/-- The store with a method added to a package. -/
def binding (s : Store) (p : String) (m : BoundMethod) : Store :=
  s.setDraft p ((s.draft p).addMethod m)

theorem get?_binding (s : Store) (p : String) (m : BoundMethod)
    (k : StructKey) : (s.binding p m).get? k = s.get? k := by
  unfold binding
  rw [get?_setDraft]
  split
  · next hp =>
      rw [← hp]
      rfl
  · rfl

theorem draft_binding (s : Store) (p : String) (m : BoundMethod) (q : String) :
    (s.binding p m).draft q = if q = p then (s.draft q).addMethod m
      else s.draft q := by
  unfold binding
  rw [draft_setDraft]
  split
  · next hq => rw [hq]
  · rfl

end Store

theorem imported_binding {s : Store} {p owner : String} {m : BoundMethod}
    {k : StructKey} : Imported owner k (s.binding p m) ↔
    Imported owner k s := by
  unfold Imported Registered
  rw [Store.get?_binding, Store.draft_binding]
  split <;> rfl

/-- A method may be added if its package knows what it mentions. -/
theorem Filled.bind {t : Symbols} {methods : List BoundMethod} {s : Store}
    (h : Filled t methods s) {p : String} {m : BoundMethod} (hm : m ∈ methods)
    (hr : Refers (Imported p) m.structRefs s) :
    Filled t methods (s.binding p m) := by
  have hmethods : ∀ q, ∀ m' ∈ ((s.binding p m).draft q).methods.values,
      m' ∈ (s.draft q).methods.values ∨ q = p ∧ m' = m := by
    intro q m' hm'
    rw [Store.draft_binding] at hm'
    split at hm'
    · next hq =>
        obtain ⟨e, he, rfl⟩ := List.mem_map.mp hm'
        rcases Table.mem_insert he with rfl | he
        · exact .inr ⟨hq, rfl⟩
        · exact .inl (List.mem_map.mpr ⟨e, he, rfl⟩)
    · exact .inl hm'
  have hwf := h.wellFormed
  refine ⟨⟨fun q => ?_, fun q => ?_, fun k st hk => ?_, fun k st hk f hf => ?_,
    fun q m' hm' => ?_, fun q => ?_⟩, fun q m' hm' => ?_⟩
  · rw [Store.draft_binding]
    split <;> exact hwf.named q
  · rw [Store.draft_binding]
    split <;> exact hwf.once q
  · rw [Store.get?_binding] at hk
    exact hwf.keyed k st hk
  · rw [Store.get?_binding] at hk
    obtain ⟨c, d, hc, hd, hrefs⟩ := hwf.sourced k st hk f hf
    exact ⟨c, d, hc, hd, fun r hr' => imported_binding.mpr (hrefs r hr')⟩
  · rcases hmethods q m' hm' with hm' | ⟨rfl, rfl⟩
    · exact fun r hr' => imported_binding.mpr (hwf.methods q m' hm' r hr')
    · exact fun r hr' => imported_binding.mpr (hr r hr')
  · rw [Store.draft_binding]
    split <;> exact hwf.unused q
  · rcases hmethods q m' hm' with hm' | ⟨-, rfl⟩
    · exact h.covered q m' hm'
    · exact hm

/-- What a step has answered, if it has not stopped. -/
def answered {ε α : Type} : Except ε (List α) → List α
  | .ok xs => xs
  | .error _ => []

section Binding

variable {t : Symbols}

/-- Adding methods never stops. -/
theorem addDescribed_filled (p : String) {methods : List BoundMethod}
    {described : Table BoundMethod} :
    Keeps .free (fun _ : Stop => False)
      (fun s => Filled t methods s ∧ ∀ e ∈ described.entries,
        Refers (Imported p) e.2.structRefs s) (addDescribed p described)
      fun new s => Filled t (methods ++ new) s := by
  unfold addDescribed
  extract_lets new
  have hturn : ∀ m ∈ new, Keeps .free (fun _ : Stop => False)
      (fun s => Filled t (methods ++ new) s ∧
        ∀ m ∈ new, Refers (Imported p) m.structRefs s)
      (Resolve.changeDraft p (·.addMethod m)) fun _ s =>
        Filled t (methods ++ new) s ∧
          ∀ m ∈ new, Refers (Imported p) m.structRefs s := by
    refine fun m hm => Keeps.modify fun s _ hs => ⟨trivial, trivial, ?_⟩
    refine ⟨hs.1.bind (List.mem_append_right _ hm) (hs.2 m hm),
      fun m' hm' k hk => ?_⟩
    exact imported_binding.mpr (hs.2 m' hm' k hk)
  refine ((Keeps.forIn hturn).pre fun s _ h => ?_).bind fun _ =>
    Keeps.pure fun s _ h => h.1
  refine ⟨⟨h.1.wellFormed, h.1.covered.mono fun m hm =>
    List.mem_append_left _ hm⟩, ?_⟩
  intro m hm
  obtain ⟨e, he, rfl⟩ := List.mem_map.mp hm
  exact h.2 e (List.mem_mergeSort.mp he)

/-- Binding a class adds what it answers; if it fails, nothing. -/
theorem boundMethods_filled (hk : t.Keyed) {c : ProgramClass}
    (hc : t.Declares c) {methods : List BoundMethod} {s : Store}
    (h : Filled t methods s) :
    Filled t (methods ++ answered (t.boundMethods c s).1)
    (t.boundMethods c s).2 := by
  rw [boundMethods_eq, run_bind]
  obtain ⟨hg, hs, hends⟩ := describedMethods_sound hk hc s h.wellFormed trivial
  have hcovered := h.covered.adds hg.drafts
  rcases hr : t.describedMethods c s with ⟨e | described, s'⟩ <;>
    rw [hr] at hs hcovered hends
  · rw [answered, List.append_nil]
    exact ⟨hs, hcovered⟩
  · obtain ⟨-, -, hadded⟩ :=
      addDescribed_filled c.package s' trivial ⟨⟨hs, hcovered⟩, hends⟩
    dsimp only
    rcases ha : addDescribed c.package described s' with ⟨e | new, s''⟩ <;>
      rw [ha] at hadded
    · exact hadded.elim
    · exact hadded

theorem note_filled (methods : List BoundMethod) (r : LogRecord) :
    Keeps .free AnyStop (Filled t methods) (Resolve.note r) fun _ =>
      Filled t methods :=
  Keeps.modify fun _ _ h => ⟨trivial, trivial, h.of_drafts rfl⟩

/-- A bound object adds its methods to those of the scan. -/
theorem add_filled (hk : t.Keyed) {entry : Source} {scope : Scope}
    (hs : t.Has scope) {calls : BridgeCalls} (scan : SurfaceScan) (e : Expr) :
    Keeps .free AnyStop (Filled t scan.methods) (scan.add t entry scope calls e)
      fun scan s => Filled t scan.methods s := by
  unfold SurfaceScan.add
  split
  · refine (Keeps.lift fun _ _ => trivial).bind fun text => ?_
    exact ((note_filled _ _).pre fun _ _ h => h.1).bind fun _ =>
      Keeps.pure fun _ _ h => h
  · next c hc =>
      refine .ite (fun _ => Keeps.pure fun _ _ h => h) fun _ => ?_
      extract_lets scan'
      have hbound : Keeps .free AnyStop (Filled t scan.methods)
          (t.boundMethods c).attempt fun new s =>
            Filled t (scan.methods ++ answered new) s := by
        refine Keeps.attempt fun s hs => ?_
        have := boundMethods_filled hk
          (Symbols.declares_classOfWithin hk ‹_› hc) hs
        rcases hr : t.boundMethods c s with ⟨(f | b | _) | new, s'⟩ <;>
          rw [hr] at this
        · exact this
        · trivial
        · trivial
        · exact this
      refine hbound.bind fun new => ?_
      cases new with
      | ok new => exact Keeps.pure fun _ _ h => h
      | error f =>
          rw [answered, List.append_nil]
          exact (note_filled _ _).bind fun _ => Keeps.pure fun _ _ h => h

theorem scanSurface_filled (hk : t.Keyed) (config : Config)
    (entry : Option Source) :
    Keeps .free AnyStop (Filled t []) (scanSurface t config entry)
      fun found s => Filled t found.1.methods s := by
  unfold scanSurface
  extract_lets bridge
  split
  · extract_lets surface
    split
    · next scope _ hscope =>
        have hs : t.Has scope := hk.scope _ _ hscope
        refine (Keeps.foldlM
          (J := fun (scan : SurfaceScan) s => Filled t scan.methods s)
          (fun scan e _ => add_filled hk hs scan e) {}).bind fun scan => ?_
        extract_lets methods
        refine (note_filled _ _).bind fun _ => Keeps.pure fun s _ h => ?_
        exact ⟨h.wellFormed, h.covered.mono fun m hm =>
          List.mem_mergeSort.mpr hm⟩
    · exact (note_filled _ _).bind fun _ => Keeps.pure fun _ _ h => h
  · exact (note_filled _ _).bind fun _ => Keeps.pure fun _ _ h => h

end Binding

end BridgeBindings
