import BridgeBindings.Proofs.Coherence
import BridgeBindings.Proofs.Samples

/-!
# Calls of the resolver

A resolver is called again and again, also after a call that stopped on a fault,
and it calls itself on the way, while classes are marked as being resolved and
aliases as being expanded. What its users rely on holds at all of these moments,
so the stores that matter are those that any calls have reached, from outside
and from inside.

Nothing has to be proved about the calls again. Every call keeps the two
invariants that say where fields come from and which structs wait, however it
ends, and all that is promised here is read off them. That a class stays without
its fields when its call stops is the one thing that needs a look at the moment
before its mark is taken back: what is being resolved waits.
-/

namespace BridgeBindings

open Syntax

/-! ## Calls -/

/-- A call of the resolver. -/
inductive Request where
  | resolve (c : ProgramClass)
  | read (site : Site) (e : Option Expr)
  | refer (owner : String) (c : ProgramClass)

/-- What a call answers. -/
inductive Reply where
  | struct (s : Struct)
  | type (t : TypeRef)

namespace Reply

/-- The structs that an answer refers to. -/
def structRefs : Reply → List StructKey
  | .struct s => s.fields.flatMap (·.type.structRefs)
  | .type t => t.structRefs

end Reply

/-- A call for a class of the program or for an annotation in one
of its modules. -/
def Request.InTree (t : Symbols) : Request → Prop
  | .resolve c => t.Declares c
  | .read site _ => t.Has site.scope
  | .refer _ c => t.Declares c

namespace Symbols

/-- What the resolver does for a call. -/
def serve (t : Symbols) : Request → Resolve Reply
  | .resolve c => .struct <$> t.resolve c
  | .read site e => .type <$> t.annotation? site e
  | .refer owner c => .type <$> t.classRef owner c

/-- The store after some calls, each of which may have answered or stopped. -/
def served (t : Symbols) (s : Store) (requests : List Request) : Store :=
  requests.foldl (fun s q => (t.serve q s).2) s

end Symbols

/-- The stores in which the resolver is called: by its users, who register
classes in between, and by itself, inside of classes and aliases. -/
inductive Reached (p : Program) : Store → Prop where
  | start (log : Log) :
      Reached p { Store.ofPackages p.packages.keys p.rootPackage with
        log := log }
  | listed {s : Store} {c : ProgramClass} (before : Reached p s)
      (declared : (Symbols.ofProgram p).Declares c) :
      Reached p (Resolve.register c s).2
  | served {s : Store} {q : Request} (before : Reached p s)
      (inTree : q.InTree (Symbols.ofProgram p)) :
      Reached p ((Symbols.ofProgram p).serve q s).2
  | inClass {s : Store} {c : ProgramClass} (before : Reached p s)
      (declared : (Symbols.ofProgram p).Declares c) (isOpen : ¬s.Closes c) :
      Reached p ((s.registered c).entering c.key)
  | inAlias {s : Store} (name : String) (before : Reached p s) :
      Reached p (s.expanding name)

/-! ## Promises -/

/-- How a call ends: with an answer, on a fault or in a breakdown, and with all
that it refers to, or that any struct refers to, registered. A class whose call
has stopped has no fields. -/
structure Request.Concludes (q : Request) (answer : Except Stop Reply)
    (after : Store) : Prop where
  comes : (∃ reply, answer = .ok reply) ∨ (∃ f, answer = .error (.fault f)) ∨
    ∃ b, answer = .error (.broken b)
  reply : ∀ reply, answer = .ok reply → Refers Registered reply.structRefs after
  raised : ∀ c e, q = .resolve c → answer = .error e → ¬after.IsResolved c.key
  fields : ∀ k st, after.get? k = some st → ∀ f ∈ st.fields,
    Refers Registered f.type.structRefs after

/-! ## The invariants, call by call -/

/-- What holds of a store in which the resolver is called. -/
structure Sane (t : Symbols) (s : Store) : Prop where
  wellFormed : WellFormed t s
  coherent : Coherent t AnyClass s

section Calls

variable {t : Symbols} {s : Store}

theorem Sane.tends (h : Sane t s) : (tending t AnyClass t.levels).holds s :=
  ⟨t.free_lt_levels s, h.coherent⟩

theorem Sourced.refers {k : StructKey} {f : StructField} (h : Sourced t k f s) :
    Refers Registered f.type.structRefs s := by
  obtain ⟨c, d, -, -, hrefs⟩ := h
  exact fun r hr => (hrefs r hr).1

/-- What resolving an item stops on leaves levels to spare. -/
theorem inTime_of_stops {item : Item} (e : Stop) (h : Stops t item e) :
    InTime e := by
  rintro rfl
  exact h

/-- What a call for a class does, told by what its resolution does. -/
theorem serve_resolve (c : ProgramClass) :
    t.serve (.resolve c) s = match t.resolve c s with
    | (.ok st, s) => (.ok (.struct st), s)
    | (.error e, s) => (.error e, s) := by
  show (Reply.struct <$> t.resolve c) s = _
  rw [map_eq_pure_bind, run_bind]
  rcases t.resolve c s with ⟨_ | _, _⟩ <;> rfl

/-- A call keeps what each kind of call keeps that it may be; a missing
annotation asks for nothing. -/
theorem serve_keeps {C : Contract} {E : Stop → Prop}
    {P : Store → Prop} {q : Request} (hq : q.InTree t)
    (hcls : ∀ c, t.Declares c → Keeps C E P (t.resolve c) fun _ _ => True)
    (hread : ∀ site e, t.Has site.scope →
      Keeps C E P (t.annotation site e) fun _ _ => True)
    (hrefer : ∀ owner c, t.Declares c →
      Keeps C E P (t.classRef owner c) fun _ _ => True) :
    Keeps C E P (t.serve q) fun _ _ => True := by
  cases q with
  | resolve c => exact (hcls c hq).map fun _ _ _ _ => trivial
  | read site e =>
      refine Keeps.map (Q := fun _ _ => True) ?_ fun _ _ _ _ => trivial
      cases e with
      | none => exact Keeps.pure fun _ _ _ => trivial
      | some e => exact hread site e hq
  | refer owner c => exact (hrefer owner c hq).map fun _ _ _ _ => trivial

variable (hk : t.Keyed)

include hk

theorem serve_sound {q : Request} (hq : q.InTree t) :
    Keeps (sound t) AnyStop Always (t.serve q) fun reply s =>
      Refers Registered reply.structRefs s := by
  cases q with
  | resolve c =>
      refine (resolve_sound hk hq).map fun st s _ hst r hr => ?_
      obtain ⟨f, hf, hr⟩ := List.mem_flatMap.mp hr
      exact (hst.sourced f hf).refers r hr
  | read site e =>
      exact (annotation?_sound hk site hq e).map fun type s _ h r hr =>
        (h r hr).1
  | refer owner c =>
      exact (structRef_sound (levels_sound hk _) owner hq).map
        fun type s _ h r hr => (h r hr).1

theorem serve_tends {q : Request} (hq : q.InTree t) :
    Keeps (tending t AnyClass t.levels) InTime Always (t.serve q) fun _ _ =>
      True := by
  have hall := levels_tend hk (visits_any t) t.levels
  refine serve_keeps hq (fun c hc => ?_) (fun site e hs => ?_)
    fun owner c hc => ?_
  · exact ((hall.cls c hc trivial).stop inTime_of_stops).post fun _ _ _ _ =>
      trivial
  · exact (annotation_tends hk (visits_any t) hall site hs e).stop
      inTime_of_stops
  · exact (structRef_tends hall owner hc trivial).stop inTime_of_stops

theorem Sane.serve (h : Sane t s) {q : Request} (hq : q.InTree t) :
    Sane t (t.serve q s).2 :=
  ⟨(serve_sound hk hq s h.wellFormed trivial).2.1,
    (serve_tends hk hq s h.tends trivial).2.1.2⟩

/-- A class whose call stops was being resolved up to that moment,
and so waits. -/
theorem resolve_raised (h : Sane t s) {c : ProgramClass}
    (hc : t.Declares c) {e : Stop} (he : (t.resolve c s).1 = .error e) :
    ¬(t.resolve c s).2.IsResolved c.key := by
  obtain ⟨n, hn, hresolve⟩ := t.resolve_eq_resolveClass
  have hs := h.tends
  rw [hn] at hs
  rw [hresolve] at he ⊢
  obtain ⟨hclosed, hopened⟩ :=
    resolveClass_steps (t := t) (s := s) ⟨classAt t n, aliasAt t n⟩ c
  by_cases hcloses : s.Closes c
  · rw [hclosed hcloses] at he
    cases he
  · rw [hopened hcloses] at he ⊢
    obtain ⟨⟨hgrows, -⟩, ⟨-, hs'⟩, -⟩ :=
      collectFields_tends hk (visits_any t)
        (levels_tend hk (visits_any t) n) hc trivial _
        (entering_tends hc hcloses hs) trivial
    rcases hr : collectFields t ⟨classAt t n, aliasAt t n⟩ c
      ((s.registered c).entering c.key) with ⟨e' | fields, s'⟩ <;>
      rw [hr] at he hgrows hs'
    · refine hs'.waiting c.key ?_
      rw [hgrows.classes]
      exact List.mem_cons_self
    · cases he

theorem serve_concludes (h : Sane t s) {q : Request} (hq : q.InTree t) :
    s.Preserves (t.serve q s).2 ∧ q.Concludes (t.serve q s).1
    (t.serve q s).2 := by
  obtain ⟨-, hwell, hsound⟩ := serve_sound hk hq s h.wellFormed trivial
  obtain ⟨hleads, -, htends⟩ := serve_tends hk hq s h.tends trivial
  refine ⟨preserves_of_grows hleads.1 hleads.2, ?_, fun reply he => ?_, ?_,
    fun k st hst f hf => (hwell.sourced k st hst f hf).refers⟩
  · rcases hr : t.serve q s with ⟨e | reply, s'⟩ <;> rw [hr] at htends
    · cases e with
      | fault f => exact .inr (.inl ⟨f, rfl⟩)
      | broken b => exact .inr (.inr ⟨b, rfl⟩)
      | exhausted => exact absurd rfl htends
    · exact .inl ⟨reply, rfl⟩
  · rcases hr : t.serve q s with ⟨e | reply', s'⟩ <;> rw [hr] at hsound he
    · cases he
    · cases he
      exact hsound
  · rintro c e rfl he
    rw [serve_resolve] at he ⊢
    have hraised := resolve_raised hk h hq (e := e)
    rcases hr : t.resolve c s with ⟨e' | st, s'⟩ <;> rw [hr] at he hraised
    · cases he
      exact hraised rfl
    · cases he

end Calls

/-! ## Runs -/

theorem sane_of_reached {p : Program} {s : Store} (h : Reached p s) :
    Sane (Symbols.ofProgram p) s := by
  have hk := Symbols.keyed_ofProgram p
  induction h with
  | start log =>
      exact ⟨(filled_ofPackages _ _ _ log).wellFormed,
        coherent_ofPackages _ _ _ _ log⟩
  | listed before declared ih =>
      rw [register_run]
      exact ⟨ih.wellFormed.register _,
        ih.coherent.register declared (.inl trivial)⟩
  | served before inTree ih => exact ih.serve hk inTree
  | inClass before declared isOpen ih =>
      exact ⟨(ih.wellFormed.register _).of_drafts rfl,
        ih.coherent.enter declared isOpen⟩
  | inAlias name before ih =>
      exact ⟨ih.wellFormed.of_drafts rfl,
        ih.coherent.alike (alike_of_drafts rfl rfl)⟩

theorem served_append (t : Symbols) (s : Store) (done later : List Request) :
    t.served s (done ++ later) = t.served (t.served s done) later :=
  List.foldl_append

theorem reached_served {p : Program} {s : Store} (h : Reached p s)
    {requests : List Request}
    (hin : ∀ q ∈ requests, q.InTree (Symbols.ofProgram p)) :
    Reached p ((Symbols.ofProgram p).served s requests) := by
  induction requests generalizing s with
  | nil => exact h
  | cons q requests ih =>
      exact ih (h.served (hin q List.mem_cons_self)) fun q' hq' =>
        hin q' (List.mem_cons_of_mem q hq')

/-- What the first calls have left in place, all later ones leave. -/
theorem served_preserves {p : Program} {s : Store} (h : Reached p s)
    {requests : List Request}
    (hin : ∀ q ∈ requests, q.InTree (Symbols.ofProgram p)) :
    s.Preserves ((Symbols.ofProgram p).served s requests) := by
  induction requests generalizing s with
  | nil => exact .refl s
  | cons q requests ih =>
      have hq := hin q List.mem_cons_self
      have hfirst :=
        (serve_concludes (Symbols.keyed_ofProgram p) (sane_of_reached h) hq).1
      exact hfirst.trans
        (ih (h.served hq) fun q' hq' => hin q' (List.mem_cons_of_mem q hq'))

/-- Any calls in any order, from any moment at which the resolver may be
called: all of them together leave in place what there was, each takes its own
marks back and comes to an end, and what is answered and stored refers to
registered structs. -/
theorem requests_preserve (p : Program) {s : Store} (hs : Reached p s)
    (requests : List Request)
    (hin : ∀ q ∈ requests, q.InTree (Symbols.ofProgram p)) :
    s.Preserves ((Symbols.ofProgram p).served s requests) ∧
      ∀ done q later, requests = done ++ q :: later →
        ((Symbols.ofProgram p).served s done).Preserves
          ((Symbols.ofProgram p).served s (done ++ [q])) ∧
        q.Concludes ((Symbols.ofProgram p).serve q
          ((Symbols.ofProgram p).served s done)).1
          ((Symbols.ofProgram p).served s (done ++ [q])) := by
  refine ⟨served_preserves hs hin, ?_⟩
  rintro done q later rfl
  have hdone : Reached p ((Symbols.ofProgram p).served s done) :=
    reached_served hs fun q' hq' => hin q' (List.mem_append_left _ hq')
  rw [served_append]
  exact serve_concludes (Symbols.keyed_ofProgram p) (sane_of_reached hdone)
    (hin q (List.mem_append_right _ List.mem_cons_self))

namespace Sample

def leadingCls : ClassDef := cls "A" [] [field "b" (name "B")]

def haltingCls : ClassDef := cls "B" [] [field "x" (name "Nowhere")]

def halting : Program :=
  program [source "main" "main" [.cls leadingCls, .cls haltingCls]]

def leading : ProgramClass :=
  ⟨.ofSource (source "main" "main" [.cls leadingCls, .cls haltingCls]),
    leadingCls⟩

/-- Whether a request has been answered with a fault. -/
def isFault {α : Type} : Except Stop α → Bool
  | .error (.fault _) => true
  | _ => false

/-- The call stops two classes deep, and is made again. -/
theorem halting_requests : Reached halting (.ofPackages ["main"] "main") ∧
    (∀ q ∈ [Request.resolve leading, .resolve leading],
      q.InTree (Symbols.ofProgram halting)) ∧
      ∃ f after, (Symbols.ofProgram halting).serve (.resolve leading)
        (.ofPackages ["main"] "main") = (.error (.fault f), after) ∧
        after.classes = [] ∧ ¬after.IsResolved leading.key := by
  have hstart : Reached halting (.ofPackages ["main"] "main") := .start []
  have hdeclared : (Symbols.ofProgram halting).Declares leading :=
    ⟨has_source _, rfl⟩
  have hin : ∀ q ∈ [Request.resolve leading, .resolve leading],
      q.InTree (Symbols.ofProgram halting) := by
    intro q hq
    simp only [List.mem_cons, List.not_mem_nil, or_false, or_self] at hq
    rw [hq]
    exact hdeclared
  obtain ⟨hkept, hends⟩ := (requests_preserve halting hstart _ hin).2 [] _ _ rfl
  have hstops : isFault ((Symbols.ofProgram halting).serve (.resolve leading)
      (.ofPackages ["main"] "main")).1 = true := by
    decide +kernel
  refine ⟨hstart, hin, ?_⟩
  rcases hends.comes with ⟨reply, hanswer⟩ | ⟨f, hanswer⟩ | ⟨b, hanswer⟩
  · rw [show ((Symbols.ofProgram halting).serve (.resolve leading)
      (.ofPackages ["main"] "main")).1 = .ok reply from hanswer] at hstops
    cases hstops
  · exact ⟨f, _, Prod.ext hanswer rfl, hkept.classes,
      hends.raised leading _ rfl hanswer⟩
  · rw [show ((Symbols.ofProgram halting).serve (.resolve leading)
      (.ofPackages ["main"] "main")).1 = .error (.broken b) from hanswer]
      at hstops
    cases hstops

end Sample

end BridgeBindings
