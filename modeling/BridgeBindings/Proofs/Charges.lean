import BridgeBindings.Proofs.Coherence
import BridgeBindings.Proofs.Exports
import BridgeBindings.Proofs.Orders

/-!
# Which packages fail, and for what

An analysis resolves in three places: class by class, in the signatures of bound
classes, and at the end what has been left waiting. Each time a fault is charged
to the package that is being looked at and to the one where the fault is
written. Since a fault is always traced back along what resolving has come to,
every charge has a beginning in a class or a bound signature of the package, or
an annotation that is written in it.

The other half of the account is what a package has that nothing was charged to:
all its records were resolved when its turn came, and their structs have kept
their fields since.
-/

namespace BridgeBindings

open Syntax Analyze

/-! ## Between resolutions -/

/-- What is kept from one resolution to the next, when no class is
being resolved. -/
def lasting (t : Symbols) (left : ProgramClass → Prop) : Contract where
  holds s := Coherent t left s ∧ s.classes = []
  leads := Store.Preserves
  refl := .refl
  trans := .trans

/-- Nothing stops a step. -/
abbrev Never {ε : Type} : ε → Prop := fun _ => False

namespace Keeps

variable {α : Type} {C : Contract} {E : Stop → Prop} {P : Store → Prop}
  {step : Resolve α} {Q : α → Store → Prop}

/-- A resolution that is called when no class is being resolved. -/
theorem lasts {t : Symbols} {left : ProgramClass → Prop}
    (h : Keeps (tending t left t.levels) E P step Q) :
    Keeps (lasting t left) E P step Q := by
  intro s hs hp
  obtain ⟨hl, hh, he⟩ := h s ⟨t.free_lt_levels s, hs.1⟩ hp
  exact ⟨preserves_of_grows hl.1 hl.2, ⟨hh.2, hl.1.classes.trans hs.2⟩, he⟩

/-- What is known of a fault when it has been caught. -/
def Caught (E : Stop → Prop) (Q : α → Store → Prop) :
    Except TypeFault α → Store → Prop
  | .ok a, s => Q a s
  | .error f, _ => E (.fault f)

/-- A step whose faults are caught is stopped by breakdowns only. -/
theorem caught {B : Breakdown → Prop} (h : Keeps C E P step Q)
    (hbroken : ∀ b, E (.broken b) → B b) (hends : ¬E .exhausted) :
    Keeps C (Breaking B) P step.attempt (Caught E Q) := by
  intro s hs hp
  obtain ⟨hl, hh, he⟩ := h s hs hp
  unfold Resolve.attempt
  rcases hr : step s with ⟨(f | b | _) | a, s'⟩ <;> rw [hr] at hl hh he
  · exact ⟨hl, hh, he⟩
  · exact ⟨hl, hh, hbroken b he⟩
  · exact absurd he hends
  · exact ⟨hl, hh, he⟩

/-- A breakdown ends the whole analysis. -/
theorem analyzing {B : Breakdown → Prop} {E : Fault → Prop}
    (h : Keeps C (Breaking B) P step Q) (hbroken : ∀ b, B b → E (.broken b)) :
    Keeps C E P (Analyze.ofResolve step) Q := by
  intro s hs hp
  obtain ⟨hl, hh, he⟩ := h s hs hp
  unfold Analyze.ofResolve
  rcases hr : step s with ⟨(f | b | _) | a, s'⟩ <;> rw [hr] at hl hh he
  · exact he.elim
  · exact ⟨hl, hh, hbroken b he⟩
  · exact he.elim
  · exact ⟨hl, hh, he⟩

end Keeps

theorem note_lasts {ε : Type} {t : Symbols} {left : ProgramClass → Prop}
    {P : Store → Prop} (r : LogRecord) :
    Keeps (lasting t left) (Never : ε → Prop) P (modify (·.note r)) fun _ _ =>
      True := by
  refine Keeps.modify fun s hs _ => ?_
  have halike : s.Alike (s.note r) := alike_of_drafts rfl rfl
  exact ⟨halike.preserves rfl, ⟨hs.1.alike halike, hs.2⟩, trivial⟩

/-! ## Beginnings -/

/-- The annotations in a signature that callers see. -/
def Syntax.FunctionDef.signature (f : FunctionDef) : List Expr :=
  (Symbols.callerParams f).filterMap (·.typeExpr) ++
    if Symbols.returnsNothing f then [] else f.returns.toList

namespace Symbols

/-- The annotations of the public methods that a class has, with
their scopes. -/
def Signs (t : Symbols) (c : ProgramClass) (scope : Scope) (e : Expr) : Prop :=
  ∃ d ∈ t.classChain c, d.scope = scope ∧ ∃ f ∈ d.decl.publicMethods,
    e ∈ f.signature

/-- The classes of the objects that the entry file binds. -/
def Binds (t : Symbols) (config : Config) (entry : Option Source)
    (c : ProgramClass) : Prop :=
  ∃ file scope, entry = some file ∧ t.scope? file.module = some scope ∧
    ∃ e ∈ (BridgeCalls.collect (bridgeOf t config entry) file.tree).bound,
      t.classOf scope
        (BridgeCalls.collect (bridgeOf t config entry) file.tree) e = some c

/-- Where the analysis of a package begins: with its classes, and with the
signatures of those that are bound. -/
inductive Starts (t : Symbols) (bound : ProgramClass → Prop) : String →
    Item → Prop where
  | cls {c : ProgramClass} (declared : t.Declares c) :
      Starts t bound c.package (.cls c)
  | signature {c : ProgramClass} {scope : Scope} {e : Expr} (isBound : bound c)
      (signs : t.Signs c scope e) : Starts t bound c.package (.expr scope e)

/-- What cannot be told where an analysis has to: the decorators of a class or
of a method that a bound class has, a part of an annotation that is wrong, or a
bound object that is of no known class. -/
inductive Untold (t : Symbols) (config : Config) (entry : Option Source) :
    Breakdown → Prop where
  | record {c : ProgramClass} {b : Breakdown} (declared : t.Declares c)
      (untold : t.breakdown? c = some b) : Untold t config entry b
  | method {c d : ProgramClass} {b : Breakdown}
      (isBound : t.Binds config entry c) (inChain : d ∈ t.classChain c)
      (untold : d.decl.methodBreakdown? = some b) : Untold t config entry b
  | part {package : String} {item : Item} {b : Breakdown}
      (starts : t.Starts (t.Binds config entry) package item)
      (untold : t.Illegible item b) : Untold t config entry b
  | object {file : Source} {scope : Scope} {e : Expr} {b : Breakdown}
      (isEntry : entry = some file)
      (hasScope : t.scope? file.module = some scope)
      (isBound : e ∈
        (BridgeCalls.collect (bridgeOf t config entry) file.tree).bound)
      (noClass : t.classOf scope
        (BridgeCalls.collect (bridgeOf t config entry) file.tree) e = none)
      (untold : e.text = .error b) : Untold t config entry b

/-- A fault that a package may be charged with: it came up when a package was
looked at, and that is this package or the fault is written in it. -/
def Charges (t : Symbols) (bound : ProgramClass → Prop) (package : String)
    (f : TypeFault) : Prop :=
  ∃ looked item, t.Starts bound looked item ∧ t.Blames item f ∧
    (package = looked ∨ package = f.package)

end Symbols

/-! ## The ledger -/

/-- Every failure so far has been charged for a reason. -/
def Charged (t : Symbols) (bound : ProgramClass → Prop)
    (failures : Table TypeFault) : Prop :=
  ∀ package f, failures.get? package = some f → t.Charges bound package f

/-- Failures are never struck off. -/
def Extends (failures failures' : Table TypeFault) : Prop :=
  ∀ package, failures'.get? package = none → failures.get? package = none

section Ledger

variable {t : Symbols} {bound : ProgramClass → Prop}
  {failures : Table TypeFault} {package : String} {f : TypeFault}

theorem charged_empty : Charged t bound .empty := fun _ _ h => by cases h

theorem Charged.insert (h : Charged t bound failures)
    (hf : t.Charges bound package f) :
    Charged t bound (failures.insert package f) := by
  intro q g hg
  rw [Table.get?_insert] at hg
  split at hg
  · next hq =>
      cases hg
      rw [hq]
      exact hf
  · exact h q g hg

theorem Charged.insertNew (h : Charged t bound failures)
    (hf : t.Charges bound package f) :
    Charged t bound (failures.insertNew package f) := by
  unfold Table.insertNew
  split
  · exact h
  · exact h.insert hf

theorem extends_insert : Extends failures (failures.insert package f) := by
  intro q hq
  rw [Table.get?_insert] at hq
  split at hq
  · cases hq
  · exact hq

theorem extends_insertNew :
    Extends failures (failures.insertNew package f) := by
  unfold Table.insertNew
  split
  · exact fun _ h => h
  · exact extends_insert

/-- Both packages that are charged with a fault may be. -/
theorem charges_both {item : Item} (hs : t.Starts bound package item)
    (hf : t.Blames item f) :
    t.Charges bound package f ∧ t.Charges bound f.package f :=
  ⟨⟨package, item, hs, hf, .inl rfl⟩, ⟨package, item, hs, hf, .inr rfl⟩⟩

theorem Charged.charge (h : Charged t bound failures) {item : Item}
    (hs : t.Starts bound package item) (hf : t.Blames item f) :
    Charged t bound (charge failures package f) ∧
      Extends failures (charge failures package f) ∧
        (charge failures package f).get? package ≠ none := by
  obtain ⟨hown, hwritten⟩ := charges_both hs hf
  refine ⟨(h.insert hown).insertNew hwritten, fun q hq =>
    extends_insert q (extends_insertNew q hq), fun hnone => ?_⟩
  have hnew := extends_insertNew package hnone
  rw [Table.get?_insert_self] at hnew
  cases hnew

theorem Charged.chargeLater (h : Charged t bound failures) {item : Item}
    (hs : t.Starts bound package item) (hf : t.Blames item f) :
    Charged t bound (chargeLater failures package f) ∧
      Extends failures (chargeLater failures package f) := by
  obtain ⟨hown, hwritten⟩ := charges_both hs hf
  exact ⟨(h.insertNew hown).insertNew hwritten,
    fun q hq => extends_insertNew q (extends_insertNew q hq)⟩

end Ledger

/-! ## Resolving classes -/

section Steps

variable {t : Symbols} {visited left : ProgramClass → Prop}

theorem register_lasts {c : ProgramClass} (hc : t.Declares c) (hl : left c) :
    Keeps (lasting t left) (Never : Stop → Prop) Always
      (Resolve.register c) fun _ _ => True := by
  refine Keeps.run (register_run c) fun s hs _ =>
    ⟨?_, ⟨hs.1.register hc (.inl hl), ?_⟩, trivial⟩
  · exact preserves_of_grows (.registered s c) (freezes_registered hs.1 c)
  · exact (s.registered_marks c).1.trans hs.2

theorem registerRecords_lasts {classes : List ProgramClass}
    (h : ∀ c ∈ classes, t.Declares c ∧ (t.isRecord c = true → left c)) :
    Keeps (lasting t left)
      (Breaking fun b => ∃ c ∈ classes, t.breakdown? c = some b) Always
      (registerRecords t classes) fun _ _ => True := by
  refine (registerRecords_keeps (fun c hc b hb => ⟨c, hc, hb⟩)
    fun c hc hrecord => ?_).post fun _ _ _ _ => trivial
  exact (register_lasts (h c hc).1 ((h c hc).2 hrecord)).stop fun _ he =>
    he.elim

/-- How resolving several classes stops: on a fault of one of them. -/
def StopsAmong (t : Symbols) (classes : List ProgramClass) : Stop → Prop :=
  fun e => ∃ c ∈ classes, Stops t (.cls c) e

variable (hk : t.Keyed) (hvisits : t.Visits visited left)

include hk hvisits

theorem resolveAll_lasts {classes : List ProgramClass}
    (h : ∀ c ∈ classes, t.Declares c ∧ visited c) :
    Keeps (lasting t left) (StopsAmong t classes) Always (resolveAll t classes)
      fun _ s => ∀ c ∈ classes, Settled c s := by
  refine Keeps.forM (R := Settled) (fun _ h => h)
    (fun c _ _ hl hc => hc.lasts hl) fun c hc => ?_
  have hresolve :=
    ((levels_tend hk hvisits t.levels).cls c (h c hc).1 (h c hc).2).lasts
  exact (hresolve.stop fun e he => ⟨c, hc, he⟩).discard.post
    fun _ _ _ ⟨_, h⟩ => h

/-! ## Scanning -/

theorem annotation?_lasts (site : Site) (hs : t.Has site.scope)
    (e : Option Expr) :
    Keeps (lasting t left)
      (fun stop => ∃ x, e = some x ∧ Stops t (.expr site.scope x) stop) Always
      (t.annotation? site e) fun _ _ => True := by
  cases e with
  | none => exact Keeps.pure fun _ _ _ => trivial
  | some e =>
      exact (annotation_tends hk hvisits (levels_tend hk hvisits t.levels) site
        hs e).lasts.stop fun stop hstop => ⟨e, rfl, hstop⟩

/-- How describing methods stops: where a signature does, or at decorators that
cannot be told. -/
def StopsIn (t : Symbols) (c : ProgramClass) (stop : Stop) : Prop :=
  (∃ scope e, t.Signs c scope e ∧ Stops t (.expr scope e) stop) ∨
    ∃ d ∈ t.classChain c, ∃ b, d.decl.methodBreakdown? = some b ∧
      stop = .broken b

omit hk hvisits in
theorem not_stopsIn_exhausted {c : ProgramClass} : ¬StopsIn t c .exhausted := by
  rintro (⟨_, _, _, h⟩ | ⟨_, _, _, _, h⟩)
  · exact h
  · cases h

theorem describe_lasts {c d : ProgramClass} (hd : t.Declares d)
    (hchain : d ∈ t.classChain c) (owner : StructKey) {f : FunctionDef}
    (hf : f ∈ d.decl.publicMethods) :
    Keeps (lasting t left) (StopsIn t c) Always
      (t.describe d owner f) fun _ _ => True := by
  have hsigned : ∀ e ∈ f.signature, ∀ stop, Stops t (.expr d.scope e) stop →
      StopsIn t c stop :=
    fun e he stop hstop => .inl ⟨d.scope, e, ⟨d, hchain, rfl, f, hf, he⟩, hstop⟩
  unfold Symbols.describe
  extract_lets site
  refine (Keeps.mapM (R := fun _ _ _ => True) (fun _ _ _ _ _ h => h) fun p hp =>
    ?_).bind fun params => ?_
  · refine Keeps.bind (Q := fun _ _ => True) ?_ fun _ => Keeps.pure fun _ _ _ =>
      ⟨trivial, trivial⟩
    refine (annotation?_lasts hk hvisits (site _) hd.inTree p.typeExpr).stop ?_
    rintro stop ⟨x, hx, hstop⟩
    exact hsigned x
      (List.mem_append_left _ (List.mem_filterMap.mpr ⟨p, hp, hx⟩)) stop hstop
  · extract_lets build
    have hbuild :
        ∀ result, Keeps (lasting t left) (StopsIn t c) Always (build result)
        fun _ _ => True := fun result => Keeps.pure fun _ _ _ => trivial
    refine .ite (fun _ => ?_) fun hreturns => ?_
    · rw [pure_bind]
      exact (hbuild none).pre fun _ _ _ => trivial
    · refine Keeps.bind (Q := fun _ _ => True) ?_ fun result =>
        (hbuild result).pre fun _ _ _ => trivial
      refine Keeps.map (Q := fun _ _ => True) ?_ fun _ _ _ _ => trivial
      refine ((annotation?_lasts hk hvisits (site _) hd.inTree
        f.returns).stop ?_).pre fun _ _ _ => trivial
      rintro stop ⟨x, hx, hstop⟩
      refine hsigned x (List.mem_append_right _ ?_) stop hstop
      rw [if_neg hreturns, hx]
      exact List.mem_singleton_self x

omit hk hvisits in
theorem addMethod_lasts (package : String) (m : BoundMethod) :
    Keeps (lasting t left) (Never : Stop → Prop) Always
      (Resolve.changeDraft package (·.addMethod m)) fun _ => Always := by
  refine Keeps.modify fun s hs _ => ?_
  have halike : s.Alike (s.setDraft package ((s.draft package).addMethod m)) :=
    alike_setDraft (fun _ => rfl) rfl
  exact ⟨halike.preserves rfl, ⟨hs.1.alike halike, hs.2⟩, trivial⟩

theorem boundMethods_lasts {c : ProgramClass} (hc : t.Declares c) :
    Keeps (lasting t left) (StopsIn t c) Always (t.boundMethods c) fun _ _ =>
      True := by
  rw [boundMethods_eq]
  refine Keeps.bind (Q := fun _ _ => True) ?_ fun described => ?_
  · refine describedMethods_keeps (J := fun _ _ _ => True)
      (fun d hd b hb => .inr ⟨d, hd, b, hb, rfl⟩) fun _ _ d hd f hf => ?_
    exact describe_lasts hk hvisits
      (Symbols.declares_chainAt hk hc hd) hd c.key hf
  · unfold addDescribed
    extract_lets methods
    have hloop : Keeps (lasting t left)
        (Never : Stop → Prop) Always _ fun _ => Always :=
      Keeps.forIn fun m (_ : m ∈ methods) => addMethod_lasts c.package m
    exact ((hloop.stop fun _ he => he.elim).pre fun _ _ _ =>
      trivial).bind fun _ => Keeps.pure fun _ _ _ => trivial

/-- The failures of a scan, each with the package of a bound class. -/
def Scanned (t : Symbols) (bound : ProgramClass → Prop)
    (failures : Table TypeFault) : Prop :=
  ∀ x ∈ failures.entries, ∃ item, t.Starts bound x.1 item ∧ t.Blames item x.2

omit hk hvisits in
theorem Scanned.insertNew {bound : ProgramClass → Prop}
    {failures : Table TypeFault} (h : Scanned t bound failures)
    {package : String} {f : TypeFault} {item : Item}
    (hs : t.Starts bound package item) (hf : t.Blames item f) :
    Scanned t bound (failures.insertNew package f) := by
  intro x hx
  unfold Table.insertNew at hx
  split at hx
  · exact h x hx
  · rcases Table.mem_insert hx with rfl | hx
    · exact ⟨item, hs, hf⟩
    · exact h x hx

variable {config : Config} {file : Source} {scope : Scope}

theorem add_lasts (hs : t.scope? file.module = some scope)
    (scan : SurfaceScan) {e : Expr}
    (he : e ∈ (BridgeCalls.collect (bridgeOf t config (some file))
      file.tree).bound) :
    Keeps (lasting t left) (Breaking (t.Untold config (some file)))
      (fun _ => Scanned t (t.Binds config (some file)) scan.failures)
      (scan.add t file scope
        (BridgeCalls.collect (bridgeOf t config (some file)) file.tree) e)
      fun scan _ => Scanned t (t.Binds config (some file)) scan.failures := by
  have hstable : (lasting t left).Stable
      fun _ => Scanned t (t.Binds config (some file)) scan.failures :=
        fun _ h => h
  -- an object without a class can only fail in its text; a class can fail in
  -- its methods, and one of their annotations is to blame then
  unfold SurfaceScan.add
  split
  · next hnone =>
      refine (Keeps.lift fun b hb => .object rfl hs he hnone hb).bind
        fun text => ?_
      exact ((((note_lasts _).stop fun _ h => h.elim).carry hstable).pre
        fun _ _ h => ⟨trivial, h.1⟩).bind fun _ => Keeps.pure fun _ _ h => h.2
  · next c hc =>
      have hdeclared := Symbols.declares_classOfWithin hk (hk.scope _ _ hs) hc
      have hbound : t.Binds config (some file) c :=
        ⟨file, scope, rfl, hs, e, he, hc⟩
      refine .ite (fun _ => Keeps.pure fun _ _ h => h) fun _ => ?_
      extract_lets scan'
      have hbroken : ∀ b, StopsIn t c (.broken b) →
          t.Untold config (some file) b := by
        rintro b (⟨home, x, hsigns, hstop⟩ | ⟨d, hd, b', hb, h⟩)
        · exact .part (.signature hbound hsigns) hstop
        · cases h
          exact .method hbound hd hb
      have hmethods := (boundMethods_lasts hk hvisits hdeclared).caught hbroken
        not_stopsIn_exhausted
      refine ((hmethods.carry hstable).pre fun _ _ h => ⟨trivial, h⟩).bind
        fun answer => ?_
      cases answer with
      | ok methods => exact Keeps.pure fun _ _ h => h.2
      | error f =>
          refine ((((note_lasts _).stop fun _ h => h.elim).carry (p := fun _ =>
            StopsIn t c (.fault f) ∧
              Scanned t (t.Binds config (some file)) scan.failures)
              fun _ h => h).pre fun _ _ h => ⟨trivial, h⟩).bind fun _ =>
                Keeps.pure fun s _ h => ?_
          obtain ⟨-, ⟨home, x, hsigns, hblames⟩ | ⟨_, _, _, _, hfault⟩,
              hscanned⟩ := h
          · exact hscanned.insertNew (.signature hbound hsigns) hblames
          · cases hfault

/-- Scanning is stopped by what cannot be told only, and its failures belong to
bound classes. -/
theorem scanSurface_lasts (config : Config) (entry : Option Source) :
    Keeps (lasting t left) (Breaking (t.Untold config entry)) Always
      (scanSurface t config entry) fun found _ =>
        Scanned t (t.Binds config entry) found.2 := by
  have hnone : Scanned t (t.Binds config entry) .empty :=
    fun x hx => absurd hx List.not_mem_nil
  unfold scanSurface
  extract_lets bridge
  split
  · next file _ _ =>
      extract_lets surface
      split
      · next scope _ hscope =>
          refine ((Keeps.foldlM (J := fun (scan : SurfaceScan) _ =>
            Scanned t (t.Binds config (some file)) scan.failures)
              (fun scan e he => add_lasts hk hvisits hscope scan he) {}).pre
                fun _ _ _ => hnone).bind fun scan => ?_
          extract_lets methods
          exact ((((note_lasts _).stop fun _ h => h.elim).carry
            (p := fun _ => Scanned t (t.Binds config (some file))
            scan.failures) fun _ h => h).pre fun _ _ h =>
            ⟨trivial, h⟩).bind fun _ => Keeps.pure fun _ _ h => h.2
      · exact ((note_lasts _).stop fun _ h => h.elim).bind fun _ =>
          Keeps.pure fun _ _ _ => hnone
  · exact ((note_lasts _).stop fun _ h => h.elim).bind fun _ =>
      Keeps.pure fun _ _ _ => hnone

end Steps

end BridgeBindings
