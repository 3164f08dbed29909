import BridgeBindings.Proofs.Pace
import BridgeBindings.Proofs.Samples
import BridgeBindings.Proofs.Stages

/-!
# The order of declarations

All record classes are registered before the first is resolved, so a class may
mention one that comes later. That does not make the order irrelevant. A class
that is mentioned by its own base is resolved while the base has no fields yet,
and inherits none of them, unless it comes first itself; and an alias that leads
to a class that is written by means of the same alias is cut in one place or the
other.

What the order can change is just what the entry point can change. Each class
resolved on its own, right after all have been registered, completes some
structs. When no class stops on a fault, none does in any order, and all
orders agree if and only if no two classes on their own complete a struct with
different fields: then every order completes each struct the way that any
class does which completes it, and otherwise two orders differ that start with
the two classes.
-/

namespace BridgeBindings

open Syntax Analyze

/-! ## Where resolving starts -/

/-- Registering stops only where a class cannot be told to be a record, and
completes nothing. -/
theorem registerRecords_unseen {t : Symbols} (hd : t.Distinct)
    {classes : List ProgramClass} (h : ∀ c ∈ classes, t.Declares c) :
    Keeps (inside t fun _ => False)
      (Breaking fun b => ∃ c ∈ classes, t.breakdown? c = some b)
      Always (registerRecords t classes) fun _ _ =>
        ∀ c ∈ classes, t.breakdown? c = none := by
  refine registerRecords_keeps (fun c hc b hb => ⟨c, hc, hb⟩) fun c hc _ => ?_
  refine Keeps.run (register_run c) fun s hs _ => ?_
  have hu := unseen_registered hs.housed c
  exact ⟨⟨hu.later, fun k _ => hu.done k⟩,
    hu.steady (hs.housed.register hd (h c hc)) hs, trivial⟩

theorem steady_ofPackages (t : Symbols) (names : List String)
    (rootPackage : String) : Steady t (Store.ofPackages names rootPackage) := by
  have hdraft := draft_ofPackages names rootPackage []
  have hget : ∀ k, (Store.ofPackages names rootPackage).get? k = none := by
    intro k
    obtain ⟨root, h⟩ := hdraft k.package
    unfold Store.get?
    rw [show (Store.ofPackages names rootPackage).draft k.package = _ from h]
    rfl
  refine ⟨⟨fun p => ?_, fun k st hk => ?_, fun k st hk => ?_, fun k hk => ?_⟩,
    fun k hk => ?_⟩
  · obtain ⟨root, h⟩ := hdraft p
    rw [show (Store.ofPackages names rootPackage).draft p = _ from h]
  · rw [hget] at hk
    cases hk
  · rw [hget] at hk
    cases hk
  · obtain ⟨root, h⟩ := hdraft k.package
    rw [show (Store.ofPackages names rootPackage).draft k.package = _ from h]
      at hk
    exact absurd hk List.not_mem_nil
  · exact absurd hk List.not_mem_nil

namespace Program

/-- The store in which the record classes of a program are registered and
none is resolved. -/
def registered (p : Program) : Store :=
  (registerRecords (Symbols.ofProgram p) (Analyze.classes (Symbols.ofProgram p))
    (Store.ofPackages p.packages.keys p.rootPackage)).2

/-- Nothing comes in the way of telling which classes are records. -/
def Tells (p : Program) : Prop :=
  ∀ c ∈ Analyze.classes (Symbols.ofProgram p),
    (Symbols.ofProgram p).breakdown? c = none

/-- A class resolved on its own. -/
def alone (p : Program) (c : ProgramClass) : Except Stop Struct × Store :=
  (Symbols.ofProgram p).resolve c p.registered

/-- The classes that the analysis resolves: the records of all packages. -/
def Resolves (p : Program) (c : ProgramClass) : Prop :=
  c ∈ records (Symbols.ofProgram p) ∧ c.package ∈ p.packages.keys

end Program

/-- A store in which nothing is resolved or being resolved. -/
structure Fresh (t : Symbols) (s : Store) : Prop where
  steady : Steady t s
  classes : s.classes = []
  aliases : s.aliases = []
  done : ∀ k, s.done k = none

theorem fresh_registered (p : Program) (hd : (Symbols.ofProgram p).Distinct) :
    Fresh (Symbols.ofProgram p) p.registered := by
  have hk := Symbols.keyed_ofProgram p
  obtain ⟨⟨hl, hout⟩, hs, -⟩ :=
    registerRecords_unseen hd (fun c hc => declares_classes hk hc)
    (Store.ofPackages p.packages.keys p.rootPackage)
    (steady_ofPackages _ _ _) trivial
  refine ⟨hs, hl.classes, hl.aliases, fun k => (hout k not_false).trans ?_⟩
  obtain ⟨root, h⟩ :=
    draft_ofPackages p.packages.keys p.rootPackage [] k.package
  unfold Store.done
  rw [show (Store.ofPackages p.packages.keys p.rootPackage).draft
    k.package = _ from h]
  exact if_neg List.not_mem_nil

/-! ## Class after class -/

section Sequence

variable {t : Symbols} {start : Store} {exact : Prop}

theorem resolveAll_cons (c : ProgramClass) (rest : List ProgramClass) :
    resolveAll t (c :: rest) = discard (t.resolve c) >>= fun _ =>
      resolveAll t rest := rfl

theorem discard_run {α : Type} (step : Resolve α) (s : Store) :
    discard step s = match step s with
      | (.ok _, s) => (.ok (), s)
      | (.error e, s) => (.error e, s) := by
  show (Functor.mapConst PUnit.unit step) s = _
  rw [map_const, Function.comp_apply, map_eq_pure_bind, run_bind]
  rcases step s with ⟨_ | _, _⟩ <;> rfl

theorem resolveAll_append (xs ys : List ProgramClass) :
    resolveAll t (xs ++ ys) = resolveAll t xs >>= fun _ => resolveAll t ys :=
  List.forM_append

/-- Every class resolves on its own, and when `exact` is assumed no two of them
complete a struct with different fields. -/
structure Compatible (t : Symbols) (start : Store) (among : ProgramClass → Prop)
    (exact : Prop) : Prop where
  declared : ∀ c, among c → t.Declares c
  resolves : ∀ c, among c → ∃ st, (t.resolve c start).1 = .ok st
  agree : exact → ∀ c c', among c → among c' →
    ∀ k x x', (t.resolve c start).2.done k = some x →
    (t.resolve c' start).2.done k = some x' → x = x'

/-- A store that has what the classes so far complete on their own. -/
structure Merged (t : Symbols) (start : Store) (exact : Prop)
    (sofar : List ProgramClass) (s : Store) : Prop where
  steady : Steady t s
  classes : s.classes = []
  aliases : s.aliases = []
  closed : Closed t (fun _ => False) s
  done : exact → ∀ k x, s.done k = some x ↔
      ∃ c ∈ sofar, (t.resolve c start).2.done k = some x

theorem Fresh.merged (h : Fresh t start) : Merged t start exact [] start := by
  refine ⟨h.steady, h.classes, h.aliases, fun c _ hdone =>
    absurd (h.done _) hdone, fun _ k x =>
      ⟨fun hx => ?_, fun ⟨c, hc, _⟩ => absurd hc List.not_mem_nil⟩⟩
  rw [h.done] at hx
  cases hx

/-- With nothing being resolved, what is done is a territory. -/
theorem Merged.territory {sofar : List ProgramClass} {s : Store}
    (h : Merged t start exact sofar s) : Territory t (Done s.done) := by
  intro c hc hdone k hk
  have hneeds : Needs t s.aliases c (.struct k) := by
    rw [h.aliases]
    exact hk
  refine Or.resolve_right (h.closed c hc hdone not_false (.struct k) hneeds) ?_
  rw [h.classes]
  exact List.not_mem_nil

theorem Fresh.ahead (h : Fresh t start) {sofar : List ProgramClass} {s : Store}
    (hs : Merged t start exact sofar s) : Ahead t s.done exact start s := by
  refine ⟨h.steady, hs.steady.housed, hs.classes.trans h.classes.symm,
    hs.aliases.trans h.aliases.symm, ?_, fun _ _ => rfl, fun k hk => ?_⟩
  · rw [h.classes]
    exact fun k hk => absurd hk List.not_mem_nil
  · rw [h.done, hk]
    exact ⟨Iff.rfl, fun _ => rfl⟩

variable (hk : t.Keyed) (hd : t.Distinct) (hfresh : Fresh t start)

include hk hd hfresh

/-- One more class. -/
theorem resolve_merged {among : ProgramClass → Prop}
    (hcomp : Compatible t start among exact) {sofar : List ProgramClass}
    (hsofar : ∀ c ∈ sofar, among c) {c : ProgramClass} (hc : among c)
    {s : Store} (h : Merged t start exact sofar s) :
    ∃ st s', t.resolve c s = (.ok st, s') ∧ s.Later s' ∧
    Merged t start exact (sofar ++ [c]) s' := by
  have hdecl := hcomp.declared c hc
  obtain ⟨st, hst⟩ := hcomp.resolves c hc
  have hown : t.resolve c start = (.ok st, (t.resolve c start).2) :=
    Prod.ext hst rfl
  -- the class on its own against the class behind the others: what both
  -- complete they complete alike, so one runs ahead of the other
  have hagrees : Agrees s.done exact (t.resolve c start).2 := by
    intro he k x x' hx hx'
    obtain ⟨c', hc', hx'⟩ := (h.done he k x').mp hx'
    exact hcomp.agree he c c' hc (hsofar c' hc') k x x' hx hx'
  obtain ⟨hlater, hfollows⟩ :=
    (levels_pace hk hd exact h.territory t.levels).cls c hdecl
  obtain ⟨st', s', hr, hahead, -⟩ :=
    hfollows start s (hfresh.ahead h) st _ hown hagrees
  obtain ⟨-, hl⟩ := hlater start hfresh.steady st _ hown
  obtain ⟨⟨hl', -⟩, hs', he⟩ :=
    resolve_completes hk hd (fun _ => False) hdecl s h.steady h.closed
  rw [show t.resolve c s = (.ok st', s') from hr] at hl' hs' he
  refine ⟨st', s', hr, hl', hs', hl'.classes.trans h.classes,
    hl'.aliases.trans h.aliases, he.1, fun hexact k x => ?_⟩
  have hmem : ∀ (P : ProgramClass → Prop), (∃ c' ∈ sofar ++ [c], P c') ↔
      (∃ c' ∈ sofar, P c') ∨ P c := by
    intro P
    simp [or_and_right, exists_or]
  rw [hmem, ← h.done hexact k x]
  cases hD : s.done k with
  | none =>
      rw [((hahead.same k hD).2) hexact]
      exact ⟨.inr, fun hx => hx.resolve_left fun hn => by cases hn⟩
  | some x' =>
      have hDone : s.done k ≠ none := by rw [hD]; exact Option.some_ne_none _
      rw [hahead.done k hDone, hD]
      refine ⟨.inl, fun hx => hx.elim id fun hx => ?_⟩
      rw [hagrees hexact k x x' hx hD]

theorem resolveAll_merged {among : ProgramClass → Prop}
    (hcomp : Compatible t start among exact) {rest : List ProgramClass}
    (hrest : ∀ c ∈ rest, among c) {sofar : List ProgramClass}
    (hsofar : ∀ c ∈ sofar, among c) {s : Store}
    (h : Merged t start exact sofar s) :
    ∃ s', resolveAll t rest s = (.ok (), s') ∧ s.Later s' ∧
      Merged t start exact (sofar ++ rest) s' := by
  induction rest generalizing sofar s with
  | nil =>
      refine ⟨s, rfl, .refl s, ?_⟩
      rw [List.append_nil]
      exact h
  | cons c rest ih =>
      have hc := hrest c List.mem_cons_self
      obtain ⟨st, s₁, hr, hl, hm⟩ :=
        resolve_merged hk hd hfresh hcomp hsofar hc h
      obtain ⟨s', hr', hl', hm'⟩ :=
        ih (fun c' hc' => hrest c' (List.mem_cons_of_mem c hc'))
        (fun c' hc' => (List.mem_append.mp hc').elim (hsofar c')
          fun he => List.mem_singleton.mp he ▸ hc) hm
      refine ⟨s', ?_, hl.trans hl', ?_⟩
      · rw [resolveAll_cons, run_bind, discard_run, hr]
        exact hr'
      · rw [List.append_assoc] at hm'
        exact hm'

end Sequence

/-! ## Orders -/

/-- An order in which the record classes of a program are handed to the
resolver: package by package, and class by class in each. -/
structure Order (p : Program) where
  packages : List String
  classes : List ProgramClass
  packages_perm : packages.Perm p.packages.keys
  classes_perm : classes.Perm (records (Symbols.ofProgram p))

namespace Order

variable {p : Program}

/-- The order of the analysis. -/
def sorted (p : Program) : Order p :=
  ⟨sortNames p.packages.keys, records (Symbols.ofProgram p),
    List.mergeSort_perm _ _, .refl _⟩

/-- The classes in the order of their packages, the other way round. -/
def reversed (p : Program) : Order p :=
  ⟨p.packages.keys, (records (Symbols.ofProgram p)).reverse, .refl _,
    List.reverse_perm _⟩

/-- Registering all record classes and resolving them. -/
def resolving (o : Order p) : Analyze (Table TypeFault) := do
  ofResolve (registerRecords (Symbols.ofProgram p)
    (Analyze.classes (Symbols.ofProgram p)))
  o.packages.foldlM (resolvePackage (Symbols.ofProgram p) o.classes) .empty

/-- The failures of the packages, and the store, when all classes have
been resolved. -/
def run (o : Order p) : Except Fault (Table TypeFault) × Store :=
  o.resolving (Store.ofPackages p.packages.keys p.rootPackage)

/-- What the analysis begins with. -/
theorem sorted_first (config : Config) (p : Program) :
    ∃ rest, Analyze.program config p = (sorted p).resolving >>= rest := by
  exact ⟨_,
    (bind_assoc (ofResolve
      (registerRecords (Symbols.ofProgram p)
        (Analyze.classes (Symbols.ofProgram p)))) _ _).symm⟩

/-- The classes one after the other. -/
def sequence (o : Order p) : List ProgramClass :=
  o.packages.flatMap fun package => o.classes.filter (·.package = package)

/-- The same packages fail, and in all others every struct has the same fields,
or waits for them, either way. -/
def Agree (o o' : Order p) : Prop :=
  ∃ failures failures', o.run.1 = .ok failures ∧ o'.run.1 = .ok failures' ∧
    (∀ package, package ∈ failures.keys ↔ package ∈ failures'.keys) ∧
    ∀ k, k.package ∉ failures.keys → o'.run.2.done k = o.run.2.done k

/-- Once all record classes are registered they are resolved. -/
theorem run_eq (hd : (Symbols.ofProgram p).Distinct) (htells : p.Tells)
    (o : Order p) :
    o.run = o.packages.foldlM (resolvePackage (Symbols.ofProgram p) o.classes)
      .empty p.registered := by
  have hk := Symbols.keyed_ofProgram p
  obtain ⟨-, -, he⟩ :=
    registerRecords_unseen hd (fun c hc => declares_classes hk hc)
    (Store.ofPackages p.packages.keys p.rootPackage)
    (steady_ofPackages _ _ _) trivial
  unfold run resolving Program.registered
  rw [run_bind]
  unfold ofResolve
  rcases hr : registerRecords (Symbols.ofProgram p)
    (Analyze.classes (Symbols.ofProgram p))
    (Store.ofPackages p.packages.keys p.rootPackage)
    with ⟨(f | b | _) | _, s⟩ <;> rw [hr] at he
  · exact he.elim
  · obtain ⟨c, hc, hb⟩ := he
    rw [htells c hc] at hb
    cases hb
  · exact he.elim

/-- A run that comes to its failures has been told which classes are records. -/
theorem tells_of_run (hd : (Symbols.ofProgram p).Distinct) {o : Order p}
    {failures : Table TypeFault} (h : o.run.1 = .ok failures) : p.Tells := by
  have hk := Symbols.keyed_ofProgram p
  obtain ⟨-, -, he⟩ :=
    registerRecords_unseen hd (fun c hc => declares_classes hk hc)
    (Store.ofPackages p.packages.keys p.rootPackage)
    (steady_ofPackages _ _ _) trivial
  have hrun : o.run = (.ok failures, o.run.2) := Prod.ext h rfl
  unfold run resolving at hrun
  obtain ⟨_, s, hr, -⟩ := ok_of_bind hrun
  unfold ofResolve at hr
  rcases hr' : registerRecords (Symbols.ofProgram p)
    (Analyze.classes (Symbols.ofProgram p))
    (Store.ofPackages p.packages.keys p.rootPackage) with ⟨stop | _, s'⟩ <;>
    rw [hr'] at hr he
  · cases hr
  · exact he

theorem mem_sequence (o : Order p) (c : ProgramClass) :
    c ∈ o.sequence ↔ p.Resolves c := by
  unfold sequence Program.Resolves
  rw [List.mem_flatMap, ← o.packages_perm.mem_iff, ← o.classes_perm.mem_iff]
  constructor
  · rintro ⟨package, hp, hc⟩
    rw [List.mem_filter, decide_eq_true_iff] at hc
    exact ⟨hc.1, hc.2 ▸ hp⟩
  · exact fun h =>
      ⟨c.package, h.2, List.mem_filter.mpr ⟨h.1, decide_eq_true rfl⟩⟩

theorem package_run {t : Symbols} {classes : List ProgramClass}
    {package : String} (failures : Table TypeFault) {s s' : Store}
    (h : resolveAll t (classes.filter (·.package = package)) s = (.ok (), s')) :
    resolvePackage t classes failures package s = (.ok failures, s') := by
  have hattempt :
      ofResolve (resolveAll t (classes.filter (·.package = package))).attempt
        s =
      (.ok (.ok ()), s') := by
    unfold ofResolve Resolve.attempt
    rw [h]
  unfold resolvePackage
  rw [run_bind, hattempt]
  rfl

/-- Package by package, as long as no class stops. -/
theorem packages_run {t : Symbols} {classes : List ProgramClass}
    {packages : List String} {failures : Table TypeFault} {s s' : Store}
    (h : resolveAll t
      (packages.flatMap fun package => classes.filter (·.package = package)) s =
      (.ok (), s')) :
    packages.foldlM (resolvePackage t classes) failures s =
    (.ok failures, s') := by
  induction packages generalizing s with
  | nil =>
      cases h
      rfl
  | cons package packages ih =>
      rw [List.flatMap_cons, resolveAll_append] at h
      obtain ⟨_, s₁, hfirst, hrest⟩ := ok_of_bind h
      rw [List.foldlM_cons, run_bind, package_run failures hfirst]
      exact ih hrest

theorem charge_ne_empty (failures : Table TypeFault) (package : String)
    (f : TypeFault) : charge failures package f ≠ .empty := by
  intro h
  have hget : (charge failures package f).get? package ≠ none := by
    unfold charge
    rw [Table.get?_insertNew, Table.get?_insert_self]
    split <;> exact Option.some_ne_none _
  rw [h] at hget
  exact hget rfl

/-- A package without a failure has stopped at none of its classes. -/
theorem ok_of_package {t : Symbols} {classes : List ProgramClass}
    {package : String} {failures failures' : Table TypeFault} {s s' : Store}
    (h : resolvePackage t classes failures package s = (.ok failures', s'))
    (hempty : failures' = .empty) :
    failures = .empty ∧
      resolveAll t (classes.filter (·.package = package)) s = (.ok (), s') := by
  unfold resolvePackage at h
  obtain ⟨answer, s₁, hattempt, hrest⟩ := ok_of_bind h
  unfold ofResolve Resolve.attempt at hattempt
  rcases hr : resolveAll t (classes.filter (·.package = package)) s
    with ⟨(f | b | _) | _, s₂⟩ <;> rw [hr] at hattempt
  · cases hattempt
    cases hrest
    exact absurd hempty (charge_ne_empty failures package f)
  · cases hattempt
  · cases hattempt
  · cases hattempt
    cases hrest
    exact ⟨hempty, rfl⟩

/-- Without a failure no class of any package has stopped. -/
theorem ok_of_packages {t : Symbols} {classes : List ProgramClass}
    {packages : List String} {failures : Table TypeFault} {s s' : Store}
    (h : packages.foldlM (resolvePackage t classes) failures s =
      (.ok .empty, s')) :
    failures = .empty ∧ resolveAll t
      (packages.flatMap fun package => classes.filter (·.package = package)) s =
      (.ok (), s') := by
  induction packages generalizing failures s with
  | nil =>
      cases h
      exact ⟨rfl, rfl⟩
  | cons package packages ih =>
      rw [List.foldlM_cons] at h
      obtain ⟨failures', s₁, hfirst, hrest⟩ := ok_of_bind h
      obtain ⟨hempty, hall⟩ := ih hrest
      obtain ⟨hempty', hown⟩ := ok_of_package hfirst hempty
      refine ⟨hempty', ?_⟩
      rw [List.flatMap_cons, resolveAll_append, run_bind, hown]
      exact hall

/-- Any class that is resolved comes first in some order. -/
theorem starts_with {c : ProgramClass} (hc : p.Resolves c) :
    ∃ (o : Order p) (rest : List ProgramClass), o.sequence = c :: rest := by
  obtain ⟨ps, qs, hpackages⟩ := List.append_of_mem hc.2
  obtain ⟨as, bs, hclasses⟩ := List.append_of_mem hc.1
  have hfirst : (c :: (as ++ bs)).filter (·.package = c.package) =
      c :: (as ++ bs).filter (·.package = c.package) :=
        List.filter_cons_of_pos (by simp)
  refine ⟨⟨c.package :: (ps ++ qs), c :: (as ++ bs), ?_, ?_⟩,
    (as ++ bs).filter (·.package = c.package) ++
    (ps ++ qs).flatMap fun package =>
      (c :: (as ++ bs)).filter (·.package = package), ?_⟩
  · rw [hpackages]
    exact List.perm_middle.symm
  · rw [hclasses]
    exact List.perm_middle.symm
  · unfold sequence
    rw [List.flatMap_cons, hfirst, List.cons_append]

/-- If no order has a failure, every class resolves on its own. -/
theorem resolves_of_run (hd : (Symbols.ofProgram p).Distinct)
    (h : ∀ o : Order p, o.run.1 = .ok .empty) {c : ProgramClass}
    (hc : p.Resolves c) : ∃ st, (p.alone c).1 = .ok st := by
  obtain ⟨o, rest, hrest⟩ := starts_with hc
  have hrun : o.run = (.ok .empty, o.run.2) := Prod.ext (h o) rfl
  obtain ⟨-, hall⟩ :=
    ok_of_packages ((o.run_eq hd (tells_of_run hd (h o))).symm.trans hrun)
  rw [show o.packages.flatMap _ = c :: rest from hrest, resolveAll_cons] at hall
  obtain ⟨_, s₁, hr, -⟩ := ok_of_bind hall
  rw [discard_run] at hr
  show ∃ st, ((Symbols.ofProgram p).resolve c p.registered).1 = .ok st
  rcases hst : (Symbols.ofProgram p).resolve c p.registered with ⟨e | st, s₂⟩
  · rw [hst] at hr
    cases hr
  · exact ⟨st, rfl⟩

section Fresh

variable (hd : (Symbols.ofProgram p).Distinct) (htells : p.Tells) {exact : Prop}
  (hcomp : Compatible (Symbols.ofProgram p) p.registered p.Resolves exact)

include hd htells hcomp

/-- An order comes through, with what its classes complete on their own. -/
theorem run_merged (o : Order p) : ∃ s, o.run = (.ok .empty, s) ∧
    Merged (Symbols.ofProgram p) p.registered exact o.sequence s := by
  have hfresh := fresh_registered p hd
  obtain ⟨s, hr, -, hm⟩ :=
    resolveAll_merged (Symbols.keyed_ofProgram p) hd hfresh hcomp
    (fun c hc => (o.mem_sequence c).mp hc)
    (fun _ h => absurd h List.not_mem_nil) hfresh.merged
  exact ⟨s, (o.run_eq hd htells).trans (packages_run hr), hm⟩

/-- What a class completes that comes first stays as it leaves it. -/
theorem first_run {c : ProgramClass} (hc : p.Resolves c) :
    ∃ (o : Order p) (s : Store), o.run = (.ok .empty, s) ∧
      ∀ k x, (p.alone c).2.done k = some x → s.done k = some x := by
  have hk := Symbols.keyed_ofProgram p
  have hfresh := fresh_registered p hd
  obtain ⟨o, rest, hrest⟩ := starts_with hc
  have hmem : ∀ c' ∈ c :: rest, p.Resolves c' := fun c' hc' =>
    (o.mem_sequence c').mp (hrest ▸ hc')
  obtain ⟨st, s₁, hr, -, hm⟩ := resolve_merged hk hd hfresh hcomp
    (fun _ h => absurd h List.not_mem_nil) hc hfresh.merged
  obtain ⟨s, hr', hl, -⟩ := resolveAll_merged hk hd hfresh hcomp
    (fun c' hc' => hmem c' (List.mem_cons_of_mem c hc'))
    (fun c' hc' => List.mem_singleton.mp hc' ▸ hc) hm
  refine ⟨o, s, (o.run_eq hd htells).trans (packages_run ?_), fun k x hx =>
    hl.done k x ?_⟩
  · rw [show o.packages.flatMap _ = c :: rest from hrest, resolveAll_cons,
      run_bind, discard_run, hr]
    exact hr'
  · rw [show p.alone c = (.ok st, s₁) from hr] at hx
    exact hx

end Fresh

end Order

namespace Order

variable {p : Program} (hd : (Symbols.ofProgram p).Distinct)

include hd

/-- No order of a program has a failure if and only if it can be told which
classes are records and every one of them resolves on its own. -/
theorem clean_iff_alone : (∀ o : Order p, o.run.1 = .ok .empty) ↔
    p.Tells ∧ ∀ c, p.Resolves c → ∃ st, (p.alone c).1 = .ok st := by
  have hdeclared : ∀ c, p.Resolves c →
      (Symbols.ofProgram p).Declares c := fun c hc =>
    declares_records (Symbols.keyed_ofProgram p) hc.1
  refine ⟨fun h =>
    ⟨tells_of_run hd (h (.sorted p)), fun c hc => resolves_of_run hd h hc⟩,
    fun ⟨htells, hresolves⟩ o => ?_⟩
  have hcomp : Compatible (Symbols.ofProgram p) p.registered p.Resolves False :=
    ⟨hdeclared, hresolves, False.elim⟩
  obtain ⟨s, hr, -⟩ := o.run_merged hd htells hcomp
  rw [hr]

/-- All orders of a program that has no failures agree if and only if no two
classes on their own complete a struct with different fields. -/
theorem agree_iff (hclean : ∀ o : Order p, o.run.1 = .ok .empty) :
    (∀ o o' : Order p, o.Agree o') ↔ ∀ c c', p.Resolves c → p.Resolves c' →
    ∀ k x x', (p.alone c).2.done k = some x →
      (p.alone c').2.done k = some x' → x = x' := by
  have hdeclared : ∀ c, p.Resolves c →
      (Symbols.ofProgram p).Declares c := fun c hc =>
    declares_records (Symbols.keyed_ofProgram p) hc.1
  have htells := tells_of_run hd (hclean (.sorted p))
  -- each class can be made the first of an order, and what it completes then it
  -- completes on its own; conversely every order merges what its classes
  -- complete
  constructor
  · intro h c c' hc hc' k x x' hx hx'
    have hcomp : Compatible (Symbols.ofProgram p) p.registered
        p.Resolves False :=
      ⟨hdeclared, fun c hc => resolves_of_run hd hclean hc, False.elim⟩
    obtain ⟨o, s, hr, hdone⟩ := first_run hd htells hcomp hc
    obtain ⟨o', s', hr', hdone'⟩ := first_run hd htells hcomp hc'
    obtain ⟨failures, _, hfailures, -, -, hsame⟩ := h o o'
    rw [hr] at hfailures hsame
    rw [hr'] at hsame
    cases hfailures
    have heq := hsame k List.not_mem_nil
    rw [hdone k x hx, hdone' k x' hx'] at heq
    cases heq
    rfl
  · intro h o o'
    have hcomp : Compatible (Symbols.ofProgram p) p.registered
        p.Resolves True :=
      ⟨hdeclared, fun c hc => resolves_of_run hd hclean hc, fun _ => h⟩
    obtain ⟨s, hr, hm⟩ := o.run_merged hd htells hcomp
    obtain ⟨s', hr', hm'⟩ := o'.run_merged hd htells hcomp
    refine ⟨.empty, .empty, by
      rw [hr], by rw [hr'], fun _ => Iff.rfl, fun k _ => ?_⟩
    rw [hr, hr']
    refine Option.ext fun x => ?_
    rw [hm.done trivial, hm'.done trivial]
    simp only [mem_sequence]

end Order

namespace Sample

/-- The classes of one file have names of their own. -/
theorem distinct_source (s : Source)
    (hplain : ∀ name value, (Scope.ofSource s).aliases.get? name = some value →
      '.' ∉ name.toList) : (Symbols.ofProgram (program [s])).Distinct := by
  refine ⟨fun c d hc hd hkey => ?_, fun scope name value h => ?_⟩
  · have hname : c.name = d.name := congrArg StructKey.name hkey
    obtain ⟨scope, decl⟩ := c
    obtain ⟨scope', decl'⟩ := d
    obtain rfl : scope = _ := has_source_only hc.inTree
    obtain rfl : scope' = _ := has_source_only hd.inTree
    have hdecl := hc.decl
    rw [hname, hd.decl] at hdecl
    cases hdecl
    rfl
  · obtain rfl := has_source_only h.inTree
    exact hplain name value h.decl

def aheadCls : ClassDef := cls "A" [] [field "b" (quoted "B")]

def behindCls : ClassDef := cls "B" ["A"] [field "x" (name "int")]

def twistedSource : Source :=
  source "main" "main" [.cls aheadCls, .cls behindCls]

/-- A class whose base mentions it. -/
def twisted : Program := program [twistedSource]

theorem twisted_distinct : (Symbols.ofProgram twisted).Distinct :=
  distinct_source twistedSource fun name value h => by cases h

/-- The two classes of the file. -/
theorem twisted_classes {c : ProgramClass}
    (h : (Symbols.ofProgram twisted).Declares c) :
    c = ⟨.ofSource twistedSource, aheadCls⟩ ∨
    c = ⟨.ofSource twistedSource, behindCls⟩ := by
  obtain ⟨scope, decl⟩ := c
  obtain rfl : scope = _ := has_source_only h.inTree
  have hdecl : decl ∈ [aheadCls, behindCls] := Table.mem_values_of_get? h.decl
  rcases List.mem_cons.mp hdecl with rfl | hdecl
  · exact .inl rfl
  · rw [List.mem_singleton.mp hdecl]
    exact .inr rfl

theorem twisted_tells : twisted.Tells := by
  unfold Program.Tells
  decide +kernel

set_option maxRecDepth 10000 in
theorem twisted_runs :
    ((Order.sorted twisted).run.1.toOption.map (·.keys) = some [] ∧
    (Order.sorted twisted).run.2.done ⟨"main", "B"⟩ =
    some [("x", .primitive .integer)]) ∧ (Order.reversed twisted).run.2.done
      ⟨"main", "B"⟩ =
      some [("b", .struct ⟨"main", "B"⟩), ("x", .primitive .integer)] := by
  decide +kernel

end Sample

end BridgeBindings
