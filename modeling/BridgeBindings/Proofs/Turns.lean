import BridgeBindings.Proofs.Lineage
import BridgeBindings.Proofs.Stages

/-!
# The turns of bound classes

A scan lets one bound class after the other describe its methods. A class that
fails leaves the methods of all packages as they are; one that does not fail
has described each of its public methods once and puts them into its package,
in the table by qualified name. So after any number of turns the table of a
package is what comes of putting in, in turn, all methods of the package that
have been answered.
-/

namespace BridgeBindings

open Syntax

/-! ## Tables of methods -/

namespace Table

variable {α : Type}

theorem mem_keys_insert {t : Table α} {key other : String} {a : α} :
    other ∈ (t.insert key a).keys ↔ other = key ∨ other ∈ t.keys := by
  show other ∈ (put key a t.entries).map (·.1) ↔
      other = key ∨ other ∈ t.entries.map (·.1)
  rw [put_keys]
  split
  · next hk => exact ⟨.inr, fun h => h.elim (fun he => he ▸ hk) id⟩
  · rw [List.mem_append, List.mem_singleton, or_comm]

theorem values_insert_fresh {t : Table α} {key : String}
    (h : key ∉ t.keys) (a : α) : (t.insert key a).values = t.values ++ [a] := by
  obtain ⟨es⟩ := t
  change key ∉ es.map (·.1) at h
  change (put key a es).map (·.2) = es.map (·.2) ++ [a]
  induction es with
  | nil => rfl
  | cons e es ih =>
      rw [List.map_cons, List.mem_cons, not_or] at h
      rw [put, if_neg fun he => h.1 he.symm, List.map_cons, ih h.2]
      rfl

/-- Methods put in one after the other, each under its qualified name. -/
def addMethods (t : Table BoundMethod) (methods : List BoundMethod) :
    Table BoundMethod :=
  methods.foldl (fun t m => t.insert m.qualifiedName m) t

theorem addMethods_append (t : Table BoundMethod) (xs ys : List BoundMethod) :
    t.addMethods (xs ++ ys) = (t.addMethods xs).addMethods ys :=
  List.foldl_append

/-- Methods of different names are all kept. -/
theorem values_addMethods {t : Table BoundMethod} {methods : List BoundMethod}
    (honce : (methods.map (·.qualifiedName)).Nodup)
    (hnew : ∀ m ∈ methods, m.qualifiedName ∉ t.keys) :
    (t.addMethods methods).values = t.values ++ methods := by
  induction methods generalizing t with
  | nil => exact (List.append_nil _).symm
  | cons m methods ih =>
      rw [List.map_cons, List.nodup_cons] at honce
      have hm := hnew m List.mem_cons_self
      have hrest : ∀ m' ∈ methods, m'.qualifiedName ∉
          (t.insert m.qualifiedName m).keys := by
        intro m' hm' hkey
        rcases mem_keys_insert.mp hkey with he | hkey
        · exact honce.1 (List.mem_map.mpr ⟨m', hm', he⟩)
        · exact hnew m' (List.mem_cons_of_mem m hm') hkey
      show ((t.insert m.qualifiedName m).addMethods methods).values = _
      rw [ih honce.2 hrest, values_insert_fresh hm, List.append_assoc]
      rfl

end Table

theorem Draft.methods_foldl (d : Draft) (methods : List BoundMethod) :
    (methods.foldl Draft.addMethod d).methods =
    d.methods.addMethods methods := by
  induction methods generalizing d with
  | nil => rfl
  | cons m methods ih => exact ih (d.addMethod m)

/-! ## Adding -/

theorem Store.draft_bindings (s : Store) (p q : String)
    (methods : List BoundMethod) : (methods.foldl (·.binding p) s).draft q =
      if q = p then methods.foldl Draft.addMethod (s.draft q)
        else s.draft q := by
  induction methods generalizing s with
  | nil => exact (ite_self _).symm
  | cons m methods ih =>
      rw [List.foldl_cons, ih, draft_binding]
      split <;> rfl

theorem forIn_run {γ : Type} {f : γ → Resolve PUnit} {g : Store → γ → Store}
    (hf : ∀ x s, f x s = (.ok PUnit.unit, g s x)) (xs : List γ) (s : Store) :
    (ForIn.forIn xs PUnit.unit fun x _ => do
      f x
      pure (ForInStep.yield PUnit.unit)) s =
      (.ok PUnit.unit, xs.foldl g s) := by
  induction xs generalizing s with
  | nil => rfl
  | cons x xs ih =>
      rw [List.forIn_cons, bind_assoc, run_bind, hf]
      dsimp only
      rw [pure_bind]
      exact ih (g s x)

/-- What has been described, by name. -/
def sortedMethods (described : Table BoundMethod) : List BoundMethod :=
  (described.entries.mergeSort fun a b => decide (a.1 ≤ b.1)).map (·.2)

theorem addDescribed_run (p : String)
    (described : Table BoundMethod) (s : Store) : addDescribed p described s =
      (.ok (sortedMethods described), (sortedMethods described).foldl
        (·.binding p) s) := by
  unfold addDescribed
  rw [run_bind, forIn_run (f := fun m => Resolve.changeDraft p (·.addMethod m))
    (g := fun s m => s.binding p m) fun _ _ => rfl]
  rfl

/-! ## Describing -/

theorem Keeps.anything {ε α : Type} {P : Store → Prop}
    (step : ExceptT ε (StateM Store) α) :
    Keeps .free (fun _ => True) P step fun _ _ => True := by
  intro s _ _
  refine ⟨trivial, trivial, ?_⟩
  rcases step s with ⟨e | a, s'⟩ <;> trivial

/-- A method that is described is that of its owner, under its own name. -/
theorem describe_named (t : Symbols) (declarer : ProgramClass)
    (owner : StructKey) (f : FunctionDef) :
    Keeps .free AnyStop Always (t.describe declarer owner f) fun m _ =>
      m.name = f.name ∧ m.package = owner.package ∧
        m.structName = owner.name := by
  unfold Symbols.describe
  extract_lets label site
  refine (Keeps.anything _).bind fun params => ?_
  extract_lets build
  refine .ite (fun _ => ?_) fun _ => (Keeps.anything _).bind fun result =>
    Keeps.pure fun _ _ _ => ⟨rfl, rfl, rfl⟩
  rw [pure_bind]
  exact Keeps.pure fun _ _ _ => ⟨rfl, rfl, rfl⟩

/-- The methods of some functions, described for a class: each name once, and
the names are those of the functions. -/
structure Describes (c : ProgramClass) (functions : List FunctionDef)
    (described : Table BoundMethod) : Prop where
  once : described.keys.Nodup
  names : ∀ n, n ∈ described.keys ↔ ∃ f ∈ functions, f.name = n
  owned : ∀ e ∈ described.entries,
    e.2.name = e.1 ∧ e.2.package = c.package ∧ e.2.structName = c.name

theorem Describes.insert {c : ProgramClass} {functions : List FunctionDef}
    {described : Table BoundMethod} (h : Describes c functions described)
    {f : FunctionDef} {m : BoundMethod} (hname : m.name = f.name)
    (hpackage : m.package = c.package) (hstruct : m.structName = c.name) :
    Describes c (functions ++ [f]) (described.insert f.name m) where
  once := Table.nodup_insert h.once _ _
  names n := by
    rw [Table.mem_keys_insert, h.names]
    simp only [List.mem_append, List.mem_singleton, or_and_right, exists_or,
      exists_eq_left]
    rw [or_comm, eq_comm]
  owned e he := by
    rcases Table.mem_insert he with rfl | he
    · exact ⟨hname, hpackage, hstruct⟩
    · exact h.owned e he

theorem describedMethods_describes (t : Symbols) (c : ProgramClass) :
    Keeps .free AnyStop Always (t.describedMethods c) fun described _ =>
      Describes c ((t.classChain c).flatMap (·.decl.publicMethods))
        described := by
  have hfunctions : (t.classChain c).flatMap (·.decl.publicMethods) =
      (t.methodsAlong c).map Prod.snd := by
    unfold Symbols.methodsAlong
    rw [List.map_flatMap]
    simp only [List.map_map, Function.comp_def, List.map_id']
  rw [hfunctions]
  refine (describedMethods_keeps (J := fun done described _ =>
    Describes c (done.map Prod.snd) described) (fun _ _ _ _ => trivial)
      fun done described d _ f _ => ?_).pre fun _ _ _ => ?_
  · intro s hs h
    rw [List.map_append]
    exact ((describe_named t d c.key f).post fun m _ _ hm =>
      h.insert hm.1 hm.2.1 hm.2.2) s hs trivial
  · exact ⟨Table.nodup_empty,
      fun n => ⟨fun h => absurd h List.not_mem_nil, fun ⟨f, hf, _⟩ =>
      absurd hf List.not_mem_nil⟩, fun e he => absurd he List.not_mem_nil⟩

/-! ## Turns -/

/-- A bound class in its turn, and the store that it finds. -/
structure Exposure where
  cls : ProgramClass
  before : Store

namespace Exposure

variable (t : Symbols) (x : Exposure)

/-- What describing and adding the methods of the class comes to. -/
def outcome : Except Stop (List BoundMethod) :=
  (t.boundMethods x.cls x.before).1

/-- The store behind the turn of the class. -/
def after : Store := (t.boundMethods x.cls x.before).2

/-- The methods that the class exposes. -/
def methods : List BoundMethod := answered (x.outcome t)

/-- Whether the class exposes its methods, or fails. -/
def succeeds : Bool := (x.outcome t).toOption.isSome

/-- The class has exposed these methods, one for each name of a public method
that it has or inherits. -/
structure Exposes (methods : List BoundMethod) : Prop where
  outcome : x.outcome t = .ok methods
  once : (methods.map (·.name)).Nodup
  names : ∀ n, n ∈ methods.map (·.name) ↔
    ∃ d, t.Inherits x.cls d ∧ ∃ f ∈ d.decl.publicMethods, f.name = n
  owned : ∀ m ∈ methods, m.package = x.cls.package ∧ m.structName = x.cls.name

end Exposure

/-- Classes that have their turns one after the other, from one store to
another. Between the turns only the log grows. -/
inductive Turns (t : Symbols) : Store → List Exposure → Store → Prop where
  | done (s : Store) : Turns t s [] s
  | note {s s' : Store} {xs : List Exposure} (r : LogRecord)
    (rest : Turns t (s.note r) xs s') : Turns t s xs s'
  | turn {s s' : Store} {xs : List Exposure} (c : ProgramClass)
    (rest : Turns t (Exposure.after t ⟨c, s⟩) xs s') :
    Turns t s (⟨c, s⟩ :: xs) s'

theorem Turns.append {t : Symbols} {s s' s'' : Store} {xs ys : List Exposure}
    (h : Turns t s xs s') (h' : Turns t s' ys s'') :
    Turns t s (xs ++ ys) s'' := by
  induction h with
  | done => exact h'
  | note r _ ih => exact .note r (ih h')
  | turn c _ ih => exact .turn c (ih h')

section Turn

variable {t : Symbols} (hk : t.Keyed)

include hk

/-- A class that does not fail exposes its public methods. -/
theorem Exposure.exposes (hspelled : t.Spelled) {x : Exposure}
    (hc : t.Declares x.cls) {methods : List BoundMethod}
    (h : x.outcome t = .ok methods) : x.Exposes t methods := by
  have hok := h
  obtain ⟨-, -, hends⟩ :=
    describedMethods_describes t x.cls x.before trivial trivial
  unfold outcome at h
  rw [boundMethods_eq, run_bind] at h
  rcases hr : t.describedMethods x.cls x.before with ⟨e | described, s⟩ <;>
    rw [hr] at h hends
  · cases h
  · dsimp only at h
    rw [addDescribed_run] at h
    cases h
    have hperm := List.mergeSort_perm described.entries fun a b =>
      decide (a.1 ≤ b.1)
    have hnames : (sortedMethods described).map (·.name) =
        (described.entries.mergeSort fun a b => decide (a.1 ≤ b.1)).map
        (·.1) := by
      unfold sortedMethods
      rw [List.map_map]
      exact List.map_congr_left fun e he =>
        (hends.owned e (hperm.mem_iff.mp he)).1
    refine ⟨hok, ?_, fun n => ?_, fun m hm => ?_⟩
    · rw [hnames]
      exact (hperm.map _).nodup_iff.mpr hends.once
    · rw [hnames, (hperm.map _).mem_iff]
      refine (hends.names n).trans ⟨?_, ?_⟩
      · rintro ⟨f, hf, he⟩
        obtain ⟨d, hd, hf⟩ := List.mem_flatMap.mp hf
        exact ⟨d, (Symbols.mem_classChain hk hspelled hc).mp hd, f, hf, he⟩
      · rintro ⟨d, hd, f, hf, he⟩
        exact ⟨f, List.mem_flatMap.mpr
          ⟨d, (Symbols.mem_classChain hk hspelled hc).mpr hd, hf⟩, he⟩
    · obtain ⟨e, he, rfl⟩ := List.mem_map.mp hm
      exact (hends.owned e (hperm.mem_iff.mp he)).2

/-- What a turn does to the methods of packages. -/
theorem Exposure.methods_after {x : Exposure} (hc : t.Declares x.cls)
    (hs : WellFormed t x.before) (q : String) : ((x.after t).draft q).methods =
      if q = x.cls.package then
        (x.before.draft q).methods.addMethods (x.methods t)
      else (x.before.draft q).methods := by
  obtain ⟨hgrows, -, -⟩ := describedMethods_sound hk hc x.before hs trivial
  unfold after methods outcome
  rw [boundMethods_eq, run_bind]
  have hsame := (hgrows.drafts q).methods
  rcases hr : t.describedMethods x.cls x.before with ⟨e | described, s⟩ <;>
    rw [hr] at hsame
  · rw [show _ = _ from hsame]
    exact (ite_self _).symm
  · dsimp only
    rw [addDescribed_run, Store.draft_bindings, ← hsame]
    split
    · exact Draft.methods_foldl _ _
    · rfl

/-- A class that fails leaves the methods of all packages as they are. -/
theorem Exposure.methods_after_fault {x : Exposure} (hc : t.Declares x.cls)
    (hs : WellFormed t x.before) {e : Stop} (h : x.outcome t = .error e)
    (q : String) :
    ((x.after t).draft q).methods = (x.before.draft q).methods := by
  rw [x.methods_after hk hc hs, methods, h]
  exact ite_self _

/-- What is known of the methods that a class answers, whether it
fails or not. -/
theorem Exposure.exposes_of_mem (hspelled : t.Spelled) {x : Exposure}
    (hc : t.Declares x.cls) {m : BoundMethod} (hm : m ∈ x.methods t) :
    x.Exposes t (x.methods t) := by
  unfold methods at hm ⊢
  rcases ho : x.outcome t with e | ms <;> rw [ho] at hm
  · exact absurd hm List.not_mem_nil
  · exact x.exposes hk hspelled hc ho

/-- Every class finds a store in order, and leaves one. -/
theorem Turns.filled {s s' : Store} {xs : List Exposure} (h : Turns t s xs s')
    (hdeclared : ∀ x ∈ xs, t.Declares x.cls) {methods : List BoundMethod}
    (hs : Filled t methods s) :
    Filled t (methods ++ xs.flatMap (·.methods t)) s' ∧
    ∀ x ∈ xs, WellFormed t x.before := by
  induction h generalizing methods with
  | done =>
      rw [List.flatMap_nil, List.append_nil]
      exact ⟨hs, fun x hx => absurd hx List.not_mem_nil⟩
  | note r _ ih => exact ih hdeclared (hs.of_drafts rfl)
  | @turn s _ xs c _ ih =>
      have hc := hdeclared ⟨c, s⟩ List.mem_cons_self
      obtain ⟨hfilled, hbefore⟩ :=
        ih (fun x hx => hdeclared x (List.mem_cons_of_mem _ hx))
        (boundMethods_filled hk hc hs)
      rw [List.append_assoc] at hfilled
      refine ⟨hfilled, fun x hx => ?_⟩
      rcases List.mem_cons.mp hx with rfl | hx
      · exact hs.wellFormed
      · exact hbefore x hx

/-- The tables of methods after all turns. -/
theorem Turns.methods (hspelled : t.Spelled) {s s' : Store} {xs : List Exposure}
    (h : Turns t s xs s') (hdeclared : ∀ x ∈ xs, t.Declares x.cls)
    (hbefore : ∀ x ∈ xs, WellFormed t x.before) (q : String) :
    (s'.draft q).methods = (s.draft q).methods.addMethods
      ((xs.flatMap (·.methods t)).filter (·.package = q)) := by
  induction h with
  | done => rfl
  | note _ _ ih => exact ih hdeclared hbefore
  | @turn s _ xs c _ ih =>
      let x : Exposure := ⟨c, s⟩
      have hc : t.Declares x.cls := hdeclared x List.mem_cons_self
      rw [ih (fun x hx => hdeclared x (List.mem_cons_of_mem _ hx))
        (fun x hx => hbefore x (List.mem_cons_of_mem _ hx)),
        x.methods_after hk hc (hbefore x List.mem_cons_self), List.flatMap_cons,
        List.filter_append, Table.addMethods_append]
      have howned : ∀ m ∈ x.methods t, m.package = c.package := fun m hm =>
        ((x.exposes_of_mem hk hspelled hc hm).owned m hm).1
      have hown : (x.methods t).filter (·.package = q) =
          if q = c.package then x.methods t else [] := by
        split
        · next hq =>
            exact List.filter_eq_self.mpr fun m hm =>
              decide_eq_true ((howned m hm).trans hq.symm)
        · next hq =>
            exact List.filter_eq_nil_iff.mpr fun m hm he =>
              hq ((of_decide_eq_true he).symm.trans (howned m hm))
      rw [show (Exposure.methods t ⟨c, s⟩).filter (·.package = q) = _ from hown]
      by_cases hq : q = c.package
      · rw [if_pos hq, if_pos hq]
      · rw [if_neg hq, if_neg hq]
        rfl

end Turn

end BridgeBindings
