import BridgeBindings.Proofs.Upkeep

/-!
# What fails in any order

Which packages fail may depend on the order in which classes are resolved: a
class that another one mentions may be resolved before the fault in it is met,
or after. Whether any package fails does not. Where no order has a failure, none
of the classes leads to an annotation that cannot be resolved; and where a
single order has none, that is so already. For a struct that has got its fields
has what it needs, and an annotation that cannot be resolved needs what there is
not: it can be cut out under an alias that is being expanded, but then the
expansion fails itself.

With failures, those packages fail in every order that have a class with such an
annotation of its own, and in no order one that no fault can be charged to.
-/

namespace BridgeBindings

open Syntax Analyze

namespace Program

/-- No class that is resolved leads to an annotation that cannot be. -/
def Sound (p : Program) : Prop :=
  ∀ c, p.Resolves c →
    ∀ scope e, (Symbols.ofProgram p).Reaches (.cls c) (.expr scope e) →
    ¬(Symbols.ofProgram p).Unresolvable scope e

/-- A fault that a package may be charged with: one to which a class leads
that is resolved, where the class belongs to the package or the fault is
written in it. -/
def Owes (p : Program) (package : String) (f : TypeFault) : Prop :=
  ∃ c, p.Resolves c ∧ (Symbols.ofProgram p).Blames (.cls c) f ∧
    (package = c.package ∨ package = f.package)

/-- What there is to say of the packages that fail without saying in which order
classes are resolved. -/
structure Accounts (p : Program) (failures : Table TypeFault) : Prop where
  /-- That nothing fails. -/
  clean : failures = .empty ↔ p.Sound
  /-- What a package fails for. -/
  owed : ∀ package f, failures.get? package = some f → p.Owes package f
  /-- Which packages have to fail. -/
  failed : ∀ c, p.Resolves c → (Symbols.ofProgram p).Flawed c →
    failures.get? c.package ≠ none

end Program

/-! ## Where nothing fails -/

/-- An item that has what it leads to: a class its fields, an annotation all
that it touches. -/
def Item.Settled (t : Symbols) (s : Store) : Item → Prop
  | .cls c => t.Declares c ∧ s.done c.key ≠ none
  | .expr scope e => t.Has scope ∧ ∀ x, Touches t [] scope e x → Known x s

section Closing

variable {t : Symbols} (hk : t.Keyed)

include hk

/-- Where nothing is being resolved, structs with fields lead to nothing that
cannot be resolved. -/
theorem Closed.sound {s : Store} (h : Closed t (fun _ => False) s)
    (hclasses : s.classes = []) (haliases : s.aliases = []) {c : ProgramClass}
    (hc : t.Declares c) (hdone : s.done c.key ≠ none) {scope : Scope} {e : Expr}
    (hreach : t.Reaches (.cls c) (.expr scope e)) :
    ¬t.Unresolvable scope e := by
  have hknown : ∀ k, Known (.struct k) s → s.done k ≠ none := by
    intro k hstruct
    exact Or.resolve_right hstruct (hclasses ▸ List.not_mem_nil)
  have hneeds : ∀ d, t.Declares d → s.done d.key ≠ none → ∀ x, Needs t [] d x →
      Known x s := by
    intro d hd hdone x hx
    exact h d hd hdone not_false x (by rw [haliases]; exact hx)
  have hsettled : ∀ item, t.Reaches (.cls c) item → item.Settled t s := by
    intro item hreach
    -- along the way from the class, each class has its fields and each
    -- annotation has what it needs
    induction hreach with
    | refl => exact ⟨hc, hdone⟩
    | tail _ hl ih =>
        cases hl with
        | base isBase =>
            exact ⟨Symbols.declares_bases hk ih.1 isBase,
              hknown _ (hneeds _ ih.1 ih.2 _ (.inl ⟨_, isBase, rfl⟩))⟩
        | field declared =>
            exact ⟨ih.1.inTree, fun x hx =>
              hneeds _ ih.1 ih.2 x (.inr ⟨_, declared, hx⟩)⟩
        | named mentioned stands noEnum =>
            exact ⟨Symbols.owns_lookup hk ih.1 stands,
              hknown _ (ih.2 _ (.cls mentioned stands noEnum))⟩
        | aliased mentioned stands noCall =>
            have howned : t.DeclaresAlias _ _ _ :=
              Symbols.owns_lookup hk ih.1 stands
            exact ⟨howned.inTree, fun x hx =>
              ih.2 x (.aliased mentioned stands noCall List.not_mem_nil hx)⟩
  exact fun hbad => (hsettled _ hreach).2 _ (.flawed hbad)

/-- Classes that have all been resolved have their fields, and so has
what they need. -/
theorem resolveAll_closed (hd : t.Distinct) {classes : List ProgramClass}
    (hdeclared : ∀ c ∈ classes, t.Declares c) {s s' : Store} (hs : Steady t s)
    (hclosed : Closed t (fun _ => False) s)
    (h : resolveAll t classes s = (.ok (), s')) :
    s.Later s' ∧ Closed t (fun _ => False) s' ∧
    ∀ c ∈ classes, Known (.struct c.key) s' := by
  induction classes generalizing s with
  | nil =>
      cases h
      exact ⟨.refl _, hclosed, fun c hc => absurd hc List.not_mem_nil⟩
  | cons c classes ih =>
      rw [resolveAll_cons] at h
      obtain ⟨_, s₁, hfirst, hrest⟩ := ok_of_bind h
      obtain ⟨⟨hl, -⟩, hs₁, he⟩ := resolve_completes hk hd (fun _ => False)
        (hdeclared c List.mem_cons_self) s hs hclosed
      rw [discard_run] at hfirst
      rcases hr : t.resolve c s with ⟨e | st, s₂⟩ <;>
        rw [hr] at hfirst hl hs₁ he <;> cases hfirst
      obtain ⟨hl', hclosed', hknown⟩ :=
        ih (fun d hd => hdeclared d (List.mem_cons_of_mem c hd)) hs₁ he.1 hrest
      refine ⟨hl.trans hl', hclosed', fun d hd => ?_⟩
      rcases List.mem_cons.mp hd with rfl | hd
      · exact he.2.known.later hl'
      · exact hknown d hd

end Closing

namespace Order

variable {p : Program}

/-- A single order without a failure shows that no order has one. -/
theorem sound_of_run (hd : (Symbols.ofProgram p).Distinct) {o : Order p}
    (h : o.run.1 = .ok .empty) : p.Sound := by
  have hk := Symbols.keyed_ofProgram p
  have hfresh := fresh_registered p hd
  have hclosed : Closed (Symbols.ofProgram p) (fun _ => False) p.registered :=
    fun c _ hdone => absurd (hfresh.done _) hdone
  have hrun : o.run = (.ok .empty, o.run.2) := Prod.ext h rfl
  obtain ⟨-, hall⟩ :=
    ok_of_packages ((o.run_eq hd (tells_of_run hd h)).symm.trans hrun)
  have hdeclared : ∀ c ∈ o.sequence,
      (Symbols.ofProgram p).Declares c := fun c hc =>
    declares_records hk ((o.mem_sequence c).mp hc).1
  -- all classes have been resolved one after the other, and at the end they
  -- have their fields with all that these need
  obtain ⟨hl, hclosed', hknown⟩ :=
    resolveAll_closed hk hd hdeclared hfresh.steady hclosed hall
  have hclasses := hl.classes.trans hfresh.classes
  intro c hc scope e hreach
  have hmem := (o.mem_sequence c).mpr hc
  refine hclosed'.sound hk hclasses (hl.aliases.trans hfresh.aliases)
    (hdeclared c hmem) ?_ hreach
  refine Or.resolve_right (hknown c hmem) ?_
  rw [hclasses]
  exact List.not_mem_nil

end Order

/-- Once all records are registered, a class stops only at something to
which it leads. -/
theorem Program.alone_stops (p : Program) {c : ProgramClass}
    (hc : p.Resolves c) {e : Stop} (h : (p.alone c).1 = .error e) :
    Stops (Symbols.ofProgram p) (.cls c) e := by
  have hk := Symbols.keyed_ofProgram p
  have hregister : Keeps (lasting (Symbols.ofProgram p) AnyClass)
      (Breaking fun b => ∃ c ∈ classes (Symbols.ofProgram p),
        (Symbols.ofProgram p).breakdown? c = some b) Always
        (registerRecords (Symbols.ofProgram p) (classes (Symbols.ofProgram p)))
        fun _ _ => True :=
    registerRecords_lasts fun c hc => ⟨declares_classes hk hc, fun _ => trivial⟩
  obtain ⟨-, hregistered, -⟩ :=
    hregister (Store.ofPackages p.packages.keys p.rootPackage)
    ⟨coherent_ofPackages _ _ _ _ [], rfl⟩ trivial
  obtain ⟨-, -, hends⟩ :=
    ((levels_tend hk (visits_any _) (Symbols.ofProgram p).levels).cls c
    (declares_records hk hc.1) trivial).lasts p.registered hregistered trivial
  have hrun : (Symbols.ofProgram p).resolve c p.registered =
      (.error e, (p.alone c).2) :=
    Prod.ext h rfl
  have hstops : Ends _ _ ((Symbols.ofProgram p).resolve c p.registered) := hends
  rw [hrun] at hstops
  exact hstops

theorem Program.Sound.resolves {p : Program} (h : p.Sound) {c : ProgramClass}
    (hc : p.Resolves c) : ∃ st, (p.alone c).1 = .ok st := by
  cases hr : (p.alone c).1 with
  | ok st => exact ⟨st, rfl⟩
  | error e =>
      have hstops := p.alone_stops hc hr
      cases e with
      | fault f =>
          obtain ⟨scope, e, hreach, hbad, -⟩ := hstops
          exact absurd hbad (h c hc scope e hreach)
      | broken b =>
          obtain ⟨scope, e, x, hreach, hwrong⟩ := hstops
          exact absurd (.inl hwrong.malformed) (h c hc scope e hreach)
      | exhausted => exact hstops.elim

/-! ## Where something fails -/

/-- No struct of a flawed class has its fields. -/
def Symbols.Spares (t : Symbols) (package : String) (d : Draft) : Prop :=
  ∀ c, t.Declares c → t.Flawed c → c.package = package → c.name ∉ d.resolved

theorem Draft.mem_resolved_complete {d : Draft} {name n : String}
    {fields : List StructField} (h : n ∈ (d.complete name fields).resolved) :
    n = name ∨ n ∈ d.resolved := by
  unfold complete at h
  split at h
  · exact List.mem_cons.mp h
  · exact .inr h

theorem get?_charge {failures : Table TypeFault} {package q : String}
    {f g : TypeFault} (h : (charge failures package f).get? q = some g) :
    g = f ∧ (q = package ∨ q = f.package) ∨ failures.get? q = some g := by
  have hinsert {k : String} (hk : (failures.insert package f).get? k = some g) :
      g = f ∧ k = package ∨ failures.get? k = some g := by
    rw [Table.get?_insert] at hk
    split at hk
    · next hkey => exact .inl ⟨(Option.some.inj hk).symm, hkey⟩
    · exact .inr hk
  unfold charge Table.insertNew at h
  split at h
  · exact (hinsert h).imp_left fun ⟨hg, hq⟩ => ⟨hg, .inl hq⟩
  · rw [Table.get?_insert] at h
    split at h
    · next hkey => exact .inl ⟨(Option.some.inj h).symm, .inr hkey⟩
    · exact (hinsert h).imp_left fun ⟨hg, hq⟩ => ⟨hg, .inl hq⟩

theorem upheld_spares {t : Symbols} (hd : t.Distinct) : t.Upheld t.Spares := by
  intro package d e he h
  cases he with
  | @complete c fields hc hsound =>
      intro c' hc' hflawed hpackage hmem
      rcases Draft.mem_resolved_complete hmem with hname | hmem
      · have hkey : c'.key = c.key := ProgramClass.key_eq hpackage hname
        exact hsound (hd.cls c' c hc' hc hkey ▸ hflawed)
      · exact h c' hc' hflawed hpackage hmem
  | register hc => exact h
  | addReference owner hc =>
      intro c' hc' hflawed hpackage hmem
      rw [Draft.edit, Draft.resolved_addReference] at hmem
      exact h c' hc' hflawed hpackage hmem
  | addUnresolved => exact h
  | addMethod => exact h

namespace Order

variable {p : Program}

/-- What resolving the classes of one package charges, it has a reason for. -/
theorem resolvePackage_owed (o : Order p) {package : String}
    (hp : package ∈ o.packages) (failures : Table TypeFault) :
    Keeps (lasting (Symbols.ofProgram p) AnyClass) AnyFault
      (fun _ => ∀ q f, failures.get? q = some f → p.Owes q f)
      (resolvePackage (Symbols.ofProgram p) o.classes failures package)
      fun failures _ => ∀ q f, failures.get? q = some f → p.Owes q f := by
  have hk := Symbols.keyed_ofProgram p
  have hturn : ∀ c ∈ o.classes.filter (·.package = package),
      p.Resolves c ∧ c.package = package := by
    intro c hc
    obtain ⟨hmem, hpackage⟩ := List.mem_filter.mp hc
    rw [decide_eq_true_iff] at hpackage
    exact ⟨⟨o.classes_perm.mem_iff.mp hmem,
      hpackage ▸ o.packages_perm.mem_iff.mp hp⟩, hpackage⟩
  have hstable : (lasting (Symbols.ofProgram p) AnyClass).Stable
      fun _ => ∀ q f, failures.get? q = some f → p.Owes q f := fun _ h => h
  refine (resolvePackage_lasts hk (visits_any _) hstable (fun c hc =>
    ⟨declares_records hk (hturn c hc).1.1, trivial⟩)
      fun _ _ _ _ => trivial).post ?_
  rintro _ s - ⟨howed, ⟨rfl, -⟩ | ⟨c, hc, f, hblames, rfl⟩⟩
  · exact howed
  · obtain ⟨hresolves, hpackage⟩ := hturn c hc
    intro q g hg
    rcases get?_charge hg with ⟨rfl, hq⟩ | hg
    · exact ⟨c, hresolves, hblames, hq.imp_left (·.trans hpackage.symm)⟩
    · exact howed q g hg

theorem resolving_owed (o : Order p) :
    Keeps (lasting (Symbols.ofProgram p) AnyClass) AnyFault
    Always o.resolving fun failures _ => ∀ q f, failures.get? q = some f →
    p.Owes q f := by
  have hk := Symbols.keyed_ofProgram p
  have hregister : Keeps (lasting (Symbols.ofProgram p) AnyClass)
      AnyFault Always
      (ofResolve (registerRecords (Symbols.ofProgram p)
        (Analyze.classes (Symbols.ofProgram p))))
      fun _ _ => True :=
    (registerRecords_lasts fun c hc =>
      ⟨declares_classes hk hc, fun _ => trivial⟩).analyzing fun _ _ => trivial
  unfold resolving
  refine hregister.bind fun _ => ?_
  refine (Keeps.foldlM
    (J := fun failures _ => ∀ q f, failures.get? q = some f → p.Owes q f)
    (fun failures package hp => o.resolvePackage_owed hp failures) .empty).pre
    ?_
  exact fun _ _ _ _ _ h => nomatch h

theorem resolving_upholds {D : String → Draft → Prop}
    (hD : (Symbols.ofProgram p).Upheld D) (o : Order p) :
    Upholds D o.resolving := by
  have hk := Symbols.keyed_ofProgram p
  unfold resolving
  refine (hD.registerRecords_upholds fun c hc =>
    declares_classes hk hc).ofResolve.bind fun _ => ?_
  exact Upholds.foldlM (fun failures package _ => hD.resolvePackage_upholds hk
    (fun c hc => declares_records hk (o.classes_perm.mem_iff.mp hc))
    failures package) _

/-- A package with a flawed class among those that are resolved fails
in every order. -/
theorem fails_of_flawed (hd : (Symbols.ofProgram p).Distinct) {o : Order p}
    {failures : Table TypeFault} (h : o.run.1 = .ok failures) {c : ProgramClass}
    (hc : p.Resolves c) (hflawed : (Symbols.ofProgram p).Flawed c) :
    failures.get? c.package ≠ none := by
  have hk := Symbols.keyed_ofProgram p
  have hdeclared := declares_records hk hc.1
  intro hnone
  obtain ⟨-, hlasting, hends⟩ :=
    resolving_surveyed (E := AnyFault) (visits_any _) (fun _ h => h)
    (fun _ _ => trivial) o (fun _ => False) (fun _ _ _ _ => trivial)
    (fun _ _ _ _ _ => trivial) (Store.ofPackages p.packages.keys p.rootPackage)
    ⟨coherent_ofPackages _ _ _ _ [], rfl⟩ trivial
  have hspares : Store.All (Symbols.ofProgram p).Spares o.run.2 :=
    (o.resolving_upholds (upheld_spares hd)).after (.ofPackages
      (fun _ _ _ _ _ _ => List.not_mem_nil) p.packages.keys p.rootPackage [])
  have hrun : o.resolving (Store.ofPackages p.packages.keys p.rootPackage) =
      (.ok failures, o.run.2) := Prod.ext h rfl
  rw [hrun] at hlasting hends
  obtain ⟨st, hst, hown⟩ :=
    hends.settled c.package (o.packages_perm.mem_iff.mpr hc.2) hnone c hc.1 rfl
  obtain ⟨c', hc', hkey, hmodule, -⟩ := hlasting.1.home _ st hst
  obtain rfl := hd.cls c' c hc' hdeclared hkey
  -- a package that is not charged has its structs resolved or waiting at the
  -- end, when nothing waits, but a flawed class gets no fields
  rcases hown hmodule with hres | hmark
  · exact hspares c'.package c' hc' hflawed rfl hres
  · rw [hlasting.2] at hmark
    exact absurd hmark List.not_mem_nil

/-- What can be said of the failures of any order. -/
theorem accounts (hd : (Symbols.ofProgram p).Distinct) {o : Order p}
    {failures : Table TypeFault} (h : o.run.1 = .ok failures) :
    p.Accounts failures where
  clean := by
    refine ⟨fun hnone => sound_of_run hd (hnone ▸ h), fun hsound => ?_⟩
    have hcomp : Compatible (Symbols.ofProgram p) p.registered
        p.Resolves False :=
      ⟨fun c hc => declares_records (Symbols.keyed_ofProgram p) hc.1,
        fun c => hsound.resolves, False.elim⟩
    obtain ⟨s, hr, -⟩ := o.run_merged hd (tells_of_run hd h) hcomp
    rw [hr] at h
    cases h
    rfl
  owed := by
    obtain ⟨-, -, hends⟩ :=
      o.resolving_owed (Store.ofPackages p.packages.keys p.rootPackage)
      ⟨coherent_ofPackages _ _ _ _ [], rfl⟩ trivial
    have hrun : o.resolving (Store.ofPackages p.packages.keys p.rootPackage) =
        (.ok failures, o.run.2) := Prod.ext h rfl
    rw [hrun] at hends
    exact hends
  failed c hc hflawed := fails_of_flawed hd h hc hflawed

end Order

/-- No order of a program has a failure if and only if it can be told which
classes are records and every one of them resolves on its own. All orders of
such a program agree if and only if no two classes on their own complete a
struct with different fields. Of other programs every order has a failure, and
the packages that fail are bounded from below and from above. -/
theorem orders_agree_iff (p : Program) (hd : (Symbols.ofProgram p).Distinct) :
    ((∀ o : Order p, o.run.1 = .ok .empty) ↔
      p.Tells ∧ ∀ c, p.Resolves c → ∃ st, (p.alone c).1 = .ok st) ∧
    ((∀ o : Order p, o.run.1 = .ok .empty) →
      ((∀ o o' : Order p, o.Agree o') ↔
        ∀ c c', p.Resolves c → p.Resolves c' →
        ∀ k x x', (p.alone c).2.done k = some x →
          (p.alone c').2.done k = some x' → x = x')) ∧
    ∀ (o : Order p) (failures : Table TypeFault), o.run.1 = .ok failures →
    p.Accounts failures :=
  ⟨Order.clean_iff_alone hd, Order.agree_iff hd, fun _ _ => Order.accounts hd⟩

namespace Sample

/-- The class inherits a field only if it is resolved before its base. -/
theorem twisted_disagree : (Symbols.ofProgram twisted).Distinct ∧
    ¬(Order.sorted twisted).Agree (Order.reversed twisted) := by
  refine ⟨twisted_distinct, fun ⟨failures, _, hfailures, _, _, hsame⟩ => ?_⟩
  obtain ⟨⟨hkeys, hsorted⟩, hreversed⟩ := twisted_runs
  rw [hfailures] at hkeys
  have hnone : failures.keys = [] := Option.some.inj hkeys
  have hdone := hsame ⟨"main", "B"⟩ (by rw [hnone]; exact List.not_mem_nil)
  rw [hsorted, hreversed] at hdone
  exact absurd hdone (by decide)

set_option maxRecDepth 10000 in
/-- Both classes resolve on their own, so the order alone is to blame. -/
theorem twisted_agree_iff : (Symbols.ofProgram twisted).Distinct ∧
    (∀ o : Order twisted, o.run.1 = .ok .empty) ∧
      ((∀ o o' : Order twisted, o.Agree o') ↔
        ∀ c c', twisted.Resolves c → twisted.Resolves c' → ∀ k x x',
          (twisted.alone c).2.done k = some x →
          (twisted.alone c').2.done k = some x' → x = x') := by
  have hok :
      (twisted.alone ⟨.ofSource twistedSource, aheadCls⟩).1.toOption.isSome =
      true ∧
      (twisted.alone ⟨.ofSource twistedSource, behindCls⟩).1.toOption.isSome =
      true := by
    decide +kernel
  have hst : ∀ c, (twisted.alone c).1.toOption.isSome = true →
      ∃ st, (twisted.alone c).1 = .ok st :=
    fun c h => (Option.isSome_iff_exists.mp h).imp fun _ => ok_of_toOption
  obtain ⟨hclean, hagree, -⟩ := orders_agree_iff twisted twisted_distinct
  have hall : ∀ o : Order twisted, o.run.1 = .ok .empty := by
    refine hclean.mpr ⟨twisted_tells, fun c hc => ?_⟩
    rcases twisted_classes
      (declares_records (Symbols.keyed_ofProgram twisted) hc.1) with rfl | rfl
    · exact hst _ hok.1
    · exact hst _ hok.2
  exact ⟨twisted_distinct, hall, hagree hall⟩

/-- A class that mentions one of another package. -/
def crossedFine : Source := source "p" "p"
  [.importModules [⟨"q", none⟩],
    .cls (cls "A" [] [field "b" (.attribute start (name "q") "B")])]

/-- A class that mentions the other one before an unknown name. -/
def crossedFaulty : Source := source "q" "q"
  [.importModules [⟨"p", none⟩],
    .cls (cls "B" []
      [field "a" (.attribute start (name "p") "A"),
        field "x" (name "Missing")])]

/-- Two packages whose classes mention each other, one of them with a fault. -/
def crossed : Program := program [crossedFine, crossedFaulty]

theorem crossed_symbols : Symbols.ofProgram crossed =
    ⟨.ofList [("p", .ofSource crossedFine),
      ("q", .ofSource crossedFaulty)]⟩ := by
  have hpackages : crossed.sortedPackages =
      [⟨"p", "", [crossedFine]⟩, ⟨"q", "", [crossedFaulty]⟩] := by
    unfold Program.sortedPackages
    rw [List.mergeSort_of_pairwise (by decide)]
    rfl
  unfold Symbols.ofProgram Program.files
  rw [hpackages]
  rfl

theorem crossed_scopes : (Symbols.ofProgram crossed).sortedScopes =
    [.ofSource crossedFine, .ofSource crossedFaulty] := by
  rw [crossed_symbols]
  unfold Symbols.sortedScopes
  rw [List.mergeSort_of_pairwise (by decide)]
  rfl

theorem crossed_names : sortNames crossed.packages.keys = ["p", "q"] :=
  List.mergeSort_of_pairwise (by decide)

/-- The package with the fault first. -/
def crossedBack : Order crossed :=
  ⟨["q", "p"], Analyze.records (Symbols.ofProgram crossed),
    .swap _ _ _, .refl _⟩

set_option maxRecDepth 10000 in
/-- The class without a fault fails where it comes first. Otherwise it is
resolved on account of the other one, before the fault is met. -/
theorem crossed_runs :
    (Order.sorted crossed).run.1.toOption.map (·.keys) = some ["p", "q"] ∧
      crossedBack.run.1.toOption.map (·.keys) = some ["q"] := by
  simp only [Order.run, Order.resolving, Order.sorted, crossedBack,
    Analyze.records, Analyze.classes, Store.ofPackages,
    crossed_scopes, crossed_names]
  simp only [crossed_symbols]
  decide +kernel

end Sample

end BridgeBindings
