import BridgeBindings.Proofs.Contract

/-!
# What an annotation asks for

Reading an annotation is a pure assembly around two kinds of questions: what a
name of the program stands for, and what a quoted annotation stands for. Which
questions are asked can be told from the annotation and its scope alone, and so
can the fault that ends a reading, so every reading is one plan: a list of
questions, and what is made of the answers.

`readExpr_follows` is the one walk over the definitions of reading. It finds the
plan, with what later arguments need of it: that it asks what `asks` says, that
the struct references of the reading are those of the answers, and that it stops
only with a fault of its own site.
-/

namespace BridgeBindings

open Syntax

/-- What reading an annotation has to know: what a name stands for, or what a
quoted text does. -/
inductive Ask where
  | name (dotted : String)
  | text (text : String)
  deriving DecidableEq

/-- The part of a list that belongs to the arguments that a name of the language
reads, the list holding something for each argument. -/
def selected {α : Type} (name : String) (args : List Expr) (xs : List α) :
    List α :=
  if name = "Optional" then xs.take 1
  else if name = "Union" then xs
  else if wrapperNames.contains name then xs.take 1
  else if name = "Literal" then []
  else if sequenceNames.contains name then xs.take 1
  else if tupleNames.contains name then
    if isOpenTuple args then xs.take 1 else xs
  else if mappingNames.contains name then xs.take 2
  else []

/-- What an expression asks that is read as a name: nothing, if that is a name
of the language. -/
def plainAsks (scope : Scope) (e : Expr) : List Ask :=
  match e.dotted? with
  | none => []
  | some dotted =>
      if (builtinName scope dotted).isSome then [] else [.name dotted]

/-- What a name with arguments asks, given what each argument asks. -/
def appliedAsks (scope : Scope) (value : Expr) (args : List Expr)
    (asked : List (List Ask)) : List Ask :=
  match value.dotted? with
  | none => []
  | some dotted =>
    match builtinName scope dotted with
    | some name => (selected name args asked).flatten
    | none => [.name dotted]

mutual

/-- The questions that reading an annotation asks, if none of them stops it. -/
def asks (scope : Scope) : Expr → List Ask
  | .constant _ (.text text _) => if text = "None" then [] else [.text text]
  | .constant .. => []
  | .binary _ left .bitOr right => asks scope left ++ asks scope right
  | .subscript _ value (.tuple _ elts) =>
      appliedAsks scope value elts (asksAll scope elts)
  | .subscript _ value index =>
      appliedAsks scope value [index] [asks scope index]
  | e => plainAsks scope e

/-- What each of some annotations asks. -/
def asksAll (scope : Scope) : List Expr → List (List Ask)
  | [] => []
  | e :: es => asks scope e :: asksAll scope es

end

/-! ## The references of a reading -/

namespace Reading

/-- The structs that a reading refers to. -/
def structRefs : Reading → List StructKey
  | .type t => t.structRefs
  | .nothing => []
  | .union m => m.types.flatMap TypeRef.structRefs

theorem mem_structRefs_single {k : StructKey} {ts : List TypeRef}
    (h : k ∈ (Members.single ts).structRefs) :
    k ∈ ts.flatMap TypeRef.structRefs := by
  cases ts with
  | nil => simp [Members.single, TypeRef.structRefs] at h
  | cons t ts =>
      simp only [Members.single] at h
      split at h
      · exact List.mem_flatMap.mpr ⟨t, List.mem_cons_self, h⟩
      · simp [TypeRef.structRefs] at h

theorem mem_structRefs_members {k : StructKey} {m : Members}
    (h : k ∈ m.type.structRefs) : k ∈ m.types.flatMap TypeRef.structRefs := by
  unfold Members.type at h
  split at h
  · exact mem_structRefs_single h
  · exact mem_structRefs_single h

theorem mem_structRefs_toType {k : StructKey} {r : Reading}
    (h : k ∈ r.toType.structRefs) : k ∈ r.structRefs := by
  cases r with
  | type t => exact h
  | nothing => simp [toType, TypeRef.structRefs] at h
  | union m => exact mem_structRefs_members h

theorem mem_structRefs_side {k : StructKey} {r : Reading}
    (h : k ∈ r.side.types.flatMap TypeRef.structRefs) : k ∈ r.structRefs := by
  cases r with
  | type t => simpa [side, structRefs] using h
  | nothing => simp [side] at h
  | union m => exact h

theorem mem_structRefs_join {k : StructKey} {a b : Reading}
    (h : k ∈ (a.join b).structRefs) : k ∈ a.structRefs ∨ k ∈ b.structRefs := by
  simp only [join, structRefs, Members.append, List.flatMap_append,
    List.mem_append] at h
  exact h.imp mem_structRefs_side mem_structRefs_side

theorem mem_structRefs_argument {k : StructKey} {r : Reading}
    (h : k ∈ r.argument.types.flatMap TypeRef.structRefs) :
    k ∈ r.structRefs := by
  cases r with
  | nothing => simp [argument] at h
  | type t => exact mem_structRefs_toType (by simpa [argument] using h)
  | union m => exact mem_structRefs_toType (by simpa [argument] using h)

end Reading

theorem types_foldl_append (ms : List Members) (m : Members) :
    (ms.foldl Members.append m).types = m.types ++
    ms.flatMap Members.types := by
  induction ms generalizing m with
  | nil => simp
  | cons n ms ih => simp [ih, Members.append, List.append_assoc]

theorem mem_structRefs_unionType {k : StructKey} {rs : List Reading}
    (h : k ∈ (unionType rs).structRefs) : ∃ r ∈ rs, k ∈ r.structRefs := by
  have hm := Reading.mem_structRefs_members h
  rw [types_foldl_append] at hm
  simp only [List.nil_append, List.mem_flatMap, List.mem_map] at hm
  obtain ⟨t, ⟨m, ⟨r, hr, rfl⟩, ht⟩, hk⟩ := hm
  exact ⟨r, hr,
    Reading.mem_structRefs_argument (List.mem_flatMap.mpr ⟨t, ht, hk⟩)⟩

/-! ## Plans -/

/-- Questions with their rows, and what is made of the answers. What stops a
plan is found when all of them are answered. -/
structure Plan (α : Type) where
  asked : List (Nat × Ask)
  ending : Except Stop (List TypeRef → α)

/-- The answer to a question on a row. -/
def Names.answer (names : Names) : Nat × Ask → Resolve TypeRef
  | (row, .name dotted) => names.named row dotted
  | (row, .text text) => names.forward row text

namespace Plan

variable {α β γ : Type}

/-- Asks all questions, then answers or stops. -/
def run (p : Plan α) (names : Names) : Resolve α := do
  let types ← p.asked.mapM names.answer
  match p.ending with
  | .ok f => return f types
  | .error stop => throw stop

/-- One plan after the other. -/
def both (p : Plan α) (q : Plan β) (join : α → β → γ) : Plan γ :=
  match p.ending with
  | .error stop => ⟨p.asked, .error stop⟩
  | .ok g =>
    ⟨p.asked ++ q.asked, q.ending.map fun h types =>
      join (g (types.take p.asked.length)) (h (types.drop p.asked.length))⟩

/-- What a plan has to do with the questions that are told beforehand. -/
structure Fits (p : Plan α) (site : Site) (asked : List Ask)
    (refs : α → List StructKey) : Prop where
  within : ∀ q ∈ p.asked, q.2 ∈ asked
  whole : ∀ f, p.ending = .ok f → ∀ a ∈ asked, ∃ row, (row, a) ∈ p.asked
  refers : ∀ f, p.ending = .ok f → ∀ types, ∀ k ∈ refs (f types),
    k ∈ types.flatMap TypeRef.structRefs
  stop : ∀ stop, p.ending = .error stop →
      ∃ row verdict, stop = site.stop row verdict

theorem mapM_congr {ε : Type} {β : Type} {m : Type → Type} [Monad m]
    [LawfulMonad m] {f : ε → m TypeRef} {xs : List ε} {k l : List TypeRef → m β}
    (h : ∀ ts, ts.length = xs.length → k ts = l ts) :
    xs.mapM f >>= k = xs.mapM f >>= l := by
  induction xs generalizing k l with
  | nil => simpa using h [] rfl
  | cons x xs ih =>
      simp only [List.mapM_cons, bind_assoc, pure_bind]
      refine bind_congr fun t => ih fun ts hts => h (t :: ts) ?_
      rw [List.length_cons, hts, List.length_cons]

theorem run_both (p : Plan α) (q : Plan β) (join : α → β → γ) (names : Names) :
    (p.both q join).run names = do
      let a ← p.run names
      let b ← q.run names
      return join a b := by
  unfold both run
  cases hp : p.ending with
  | error f =>
      simp only [bind_assoc]
      exact bind_congr fun _ => rfl
  | ok g =>
      simp only [List.mapM_append, bind_assoc, pure_bind]
      refine mapM_congr fun xs hxs => bind_congr fun ys => ?_
      cases q.ending with
      | error f => rfl
      | ok h =>
          show _ = Pure.pure (join (g xs) (h ys))
          rw [Except.map]
          dsimp only
          rw [← hxs, List.take_left, List.drop_left]

end Plan

/-- A step that is a plan for every way of answering. -/
def Follows {α : Type} (site : Site) (asked : List Ask)
    (refs : α → List StructKey) (step : Names → Resolve α) : Prop :=
  ∃ p : Plan α, (∀ names, step names = p.run names) ∧ p.Fits site asked refs

namespace Follows

variable {α β γ : Type} {site : Site} {asked more : List Ask}
  {refs : α → List StructKey} {step : Names → Resolve α}

theorem pure {a : α} (h : refs a = []) :
    Follows site [] refs fun _ => Pure.pure a := by
  refine ⟨⟨[], .ok fun _ => a⟩, fun names => rfl, ?_, ?_, ?_, ?_⟩
  · exact fun q hq => absurd hq List.not_mem_nil
  · exact fun f _ a ha => absurd ha List.not_mem_nil
  · intro f hf types k hk
    cases hf
    rw [h] at hk
    exact absurd hk List.not_mem_nil
  · exact fun f hf => by cases hf

theorem stop (row : Nat) (verdict : Except Breakdown String) :
    Follows site asked refs fun _ => throw (site.stop row verdict) := by
  refine ⟨⟨[], .error (site.stop row verdict)⟩,
    fun names => rfl, ?_, ?_, ?_, ?_⟩
  · exact fun q hq => absurd hq List.not_mem_nil
  · exact fun f hf => by cases hf
  · exact fun f hf => by cases hf
  · intro f hf
    cases hf
    exact ⟨row, verdict, rfl⟩

/-- One question. -/
theorem ask (row : Nat) (a : Ask) :
    Follows site [a] TypeRef.structRefs fun names => names.answer (row, a) := by
  refine ⟨⟨[(row, a)], .ok fun types => types.headD .any⟩,
    fun names => ?_, ?_, ?_, ?_, ?_⟩
  · simp [Plan.run]
  · rintro q hq
    rw [List.mem_singleton.mp hq]
    exact List.mem_singleton_self a
  · intro f _ b hb
    rw [List.mem_singleton.mp hb]
    exact ⟨row, List.mem_singleton_self _⟩
  · intro f hf types k hk
    cases hf
    cases types with
    | nil => simp [TypeRef.structRefs] at hk
    | cons t types => exact List.mem_flatMap.mpr ⟨t, List.mem_cons_self, hk⟩
  · exact fun f hf => by cases hf

theorem both {step' : Names → Resolve β} {refs' : β → List StructKey}
    {refs'' : γ → List StructKey} {join : α → β → γ}
    (h : Follows site asked refs step) (h' : Follows site more refs' step')
    (hjoin : ∀ a b, ∀ k ∈ refs'' (join a b), k ∈ refs a ∨ k ∈ refs' b) :
    Follows site (asked ++ more) refs'' fun names => do
      let a ← step names
      let b ← step' names
      return join a b := by
  -- a first plan that stops is all that is run; else the answers to both are
  -- split by the number of the first ones
  obtain ⟨p, hp, fp⟩ := h
  obtain ⟨q, hq, fq⟩ := h'
  refine ⟨p.both q join, fun names => ?_, ?_⟩
  · dsimp only
    rw [Plan.run_both, hp, hq]
  cases hpe : p.ending with
  | error f =>
      have hb : p.both q join = ⟨p.asked, .error f⟩ := by rw [Plan.both, hpe]
      rw [hb]
      refine ⟨fun x hx => List.mem_append_left _ (fp.within x hx), ?_, ?_, ?_⟩
      · exact fun g hg => by cases hg
      · exact fun g hg => by cases hg
      · intro g hg
        cases hg
        exact fp.stop f hpe
  | ok g =>
      have hb : p.both q join = ⟨p.asked ++ q.asked, q.ending.map fun h types =>
          join (g (types.take p.asked.length))
            (h (types.drop p.asked.length))⟩ := by
        rw [Plan.both, hpe]
      rw [hb]
      refine ⟨fun x hx => ?_, fun r hr a ha => ?_, fun r hr types k hk => ?_,
        fun f hf => ?_⟩
      · rcases List.mem_append.mp hx with hx | hx
        · exact List.mem_append_left _ (fp.within x hx)
        · exact List.mem_append_right _ (fq.within x hx)
      · cases hqe : q.ending with
        | error f => rw [hqe] at hr; cases hr
        | ok h =>
            rcases List.mem_append.mp ha with ha | ha
            · obtain ⟨row, hrow⟩ := fp.whole g hpe a ha
              exact ⟨row, List.mem_append_left _ hrow⟩
            · obtain ⟨row, hrow⟩ := fq.whole h hqe a ha
              exact ⟨row, List.mem_append_right _ hrow⟩
      · cases hqe : q.ending with
        | error f => rw [hqe] at hr; cases hr
        | ok h =>
            rw [hqe] at hr
            cases hr
            rcases hjoin _ _ k hk with hk | hk
            · obtain ⟨t, ht, hk⟩ := List.mem_flatMap.mp (fp.refers g hpe _ k hk)
              exact List.mem_flatMap.mpr ⟨t, List.mem_of_mem_take ht, hk⟩
            · obtain ⟨t, ht, hk⟩ := List.mem_flatMap.mp (fq.refers h hqe _ k hk)
              exact List.mem_flatMap.mpr ⟨t, List.mem_of_mem_drop ht, hk⟩
      · cases hqe : q.ending with
        | error f' =>
            rw [hqe] at hf
            cases hf
            exact fq.stop _ hqe
        | ok h => rw [hqe] at hf; cases hf

theorem map {refs' : β → List StructKey} {f : α → β}
    (h : Follows site asked refs step)
    (hf : ∀ a, ∀ k ∈ refs' (f a), k ∈ refs a) :
    Follows site asked refs' fun names => f <$> step names := by
  have hunit : Follows site [] (fun _ => []) fun _ => Pure.pure () :=
    Follows.pure rfl
  have hboth : Follows site (asked ++ []) refs' fun names => do
      let a ← step names
      let _ ← Pure.pure ()
      return f a := h.both hunit fun a _ k hk => .inl (hf a k hk)
  simpa only [List.append_nil, pure_bind, map_eq_pure_bind] using hboth

end Follows

/-! ## The walk -/

variable {site : Site}

theorem structRefs_builtinType {name : String} {t : TypeRef}
    (h : builtinType? name = some t) : t.structRefs = [] := by
  unfold builtinType? at h
  split at h
  · cases h; rfl
  · repeat' split at h
    all_goals first
      | (cases h; rfl)
      | exact absurd h (by simp)

theorem builtin_follows (row : Nat) (name dotted : String) :
    Follows site [] TypeRef.structRefs fun _ =>
      builtin site row name dotted := by
  unfold builtin
  split
  · next t ht => exact Follows.pure (structRefs_builtinType ht)
  · split
    · exact Follows.pure rfl
    · exact Follows.stop row (.ok (undefinedMessage dotted))

theorem plain_follows (e : Expr) :
    Follows site (plainAsks site.scope e) TypeRef.structRefs fun names =>
      plain names site e := by
  unfold plain plainAsks
  cases e.dotted? with
  | none => exact Follows.stop _ _
  | some dotted =>
      dsimp only
      cases builtinName site.scope dotted with
      | some name => exact builtin_follows _ _ _
      | none => exact Follows.ask _ (.name dotted)

/-- The readings of the arguments of a name, each with what it asks for. -/
def ArgumentsFollow (site : Site) (asked : List (List Ask))
    (arguments : Names → List (Resolve Reading)) : Prop :=
  ∃ steps : List (Names → Resolve Reading),
    (∀ names, arguments names = steps.map (· names)) ∧
    List.Forall₂ (Follows site · Reading.structRefs ·) asked steps

variable {asked : List (List Ask)} {arguments : Names → List (Resolve Reading)}

theorem argumentType_follows
    (h : ArgumentsFollow site asked arguments) (i : Nat) :
    Follows site (asked[i]?.getD []) TypeRef.structRefs
      fun names => argumentType (arguments names) i := by
  obtain ⟨steps, hsteps, hargs⟩ := h
  simp only [argumentType, hsteps, List.getElem?_map]
  cases hi : steps[i]? with
  | none =>
      have hn : asked[i]? = none := by
        rw [List.getElem?_eq_none_iff] at hi ⊢
        rw [hargs.length_eq]
        exact hi
      rw [hn]
      exact Follows.pure rfl
  | some step =>
      obtain ⟨hlt, rfl⟩ := List.getElem?_eq_some_iff.mp hi
      have hlt' : i < asked.length := by rw [hargs.length_eq]; exact hlt
      rw [List.getElem?_eq_getElem hlt', Option.getD_some]
      exact (hargs.get hlt' hlt).map fun _ _ hk =>
        Reading.mem_structRefs_toType hk

theorem readAll_follows (h : ArgumentsFollow site asked arguments) :
    Follows site asked.flatten (·.flatMap Reading.structRefs)
      fun names => (arguments names).mapM id := by
  obtain ⟨steps, hsteps, hargs⟩ := h
  simp only [hsteps]
  clear hsteps
  induction hargs with
  | nil => exact Follows.pure rfl
  | cons hstep _ ih =>
      simp only [List.map_cons, List.mapM_cons, List.flatten_cons, id]
      refine hstep.both ih fun r rs k hk => ?_
      rw [List.flatMap_cons, List.mem_append] at hk
      exact hk

theorem readTypes_eq (arguments : List (Resolve Reading)) :
    readTypes arguments = List.map Reading.toType <$> arguments.mapM id := by
  unfold readTypes
  induction arguments with
  | nil => rfl
  | cons read rest ih =>
      rw [List.mapM_cons, List.mapM_cons, ih]
      simp only [map_bind, bind_map_left, map_pure, List.map_cons, id]

theorem readTypes_follows (h : ArgumentsFollow site asked arguments) :
    Follows site asked.flatten (·.flatMap TypeRef.structRefs)
      fun names => readTypes (arguments names) := by
  simp only [readTypes_eq]
  refine (readAll_follows h).map fun rs k hk => ?_
  obtain ⟨t, ht, hk⟩ := List.mem_flatMap.mp hk
  obtain ⟨r, hr, rfl⟩ := List.mem_map.mp ht
  exact List.mem_flatMap.mpr ⟨r, hr, Reading.mem_structRefs_toType hk⟩

theorem flatten_take_one {α : Type} (xs : List (List α)) :
    (xs.take 1).flatten = xs[0]?.getD [] := by
  cases xs <;> simp

theorem flatten_take_two {α : Type} (xs : List (List α)) :
    (xs.take 2).flatten = xs[0]?.getD [] ++ xs[1]?.getD [] := by
  match xs with
  | [] => rfl
  | [x] => simp
  | x :: y :: rest => simp

theorem generic_follows (h : ArgumentsFollow site asked arguments) (row : Nat)
    (name dotted : String) (args : List Expr) :
    Follows site (selected name args asked).flatten TypeRef.structRefs
      fun names => generic site row name dotted args (arguments names) := by
  unfold generic selected
  by_cases hOptional : name = "Optional"
  · simp only [if_pos hOptional, flatten_take_one]
    exact (argumentType_follows h 0).map fun _ _ hk => hk
  simp only [if_neg hOptional]
  by_cases hUnion : name = "Union"
  · simp only [if_pos hUnion]
    refine (readAll_follows h).map fun rs k hk => ?_
    exact List.mem_flatMap.mpr (mem_structRefs_unionType hk)
  simp only [if_neg hUnion]
  by_cases hWrapper : wrapperNames.contains name = true
  · simp only [if_pos hWrapper, flatten_take_one]
    exact argumentType_follows h 0
  simp only [if_neg hWrapper]
  by_cases hLiteral : name = "Literal"
  · simp only [if_pos hLiteral]
    refine Follows.pure ?_
    unfold commonKind
    split
    · split <;> rfl
    · rfl
  simp only [if_neg hLiteral]
  by_cases hSequence : sequenceNames.contains name = true
  · simp only [if_pos hSequence, flatten_take_one]
    exact (argumentType_follows h 0).map fun _ _ hk => hk
  simp only [if_neg hSequence]
  by_cases hTuple : tupleNames.contains name = true
  · simp only [if_pos hTuple]
    by_cases hOpen : isOpenTuple args = true
    · simp only [if_pos hOpen, flatten_take_one]
      exact (argumentType_follows h 0).map fun _ _ hk => hk
    · simp only [if_neg hOpen]
      exact (readTypes_follows h).map fun _ _ hk =>
        Reading.mem_structRefs_single hk
  simp only [if_neg hTuple]
  by_cases hMapping : mappingNames.contains name = true
  · simp only [if_pos hMapping, flatten_take_two]
    exact (argumentType_follows h 0).both
      (argumentType_follows h 1) fun _ _ _ hk => List.mem_append.mp hk
  · simp only [if_neg hMapping]
    exact builtin_follows _ _ _

theorem applied_follows (h : ArgumentsFollow site asked arguments)
    (e value : Expr) (args : List Expr) :
    Follows site (appliedAsks site.scope value args asked) TypeRef.structRefs
      fun names => applied names site e value args (arguments names) := by
  unfold applied appliedAsks
  cases value.dotted? with
  | none => exact Follows.stop _ _
  | some dotted =>
      dsimp only
      cases builtinName site.scope dotted with
      | some name => exact generic_follows h _ _ _ _
      | none => exact Follows.ask _ (.name dotted)

/-- The walk over an annotation: one case for each way of reading it. -/
theorem readExpr_follows (site : Site) :
    (∀ e, Follows site (asks site.scope e) Reading.structRefs
      fun names => readExpr names site e) ∧
    ∀ es, ArgumentsFollow site (asksAll site.scope es) fun names =>
      readExprs names site es := by
  have hquiet : ∀ {step : Names → Resolve Reading} {r : Reading},
      r.structRefs = [] → (∀ names, step names = pure r) →
      Follows site [] Reading.structRefs step := by
    intro step r hr hstep
    rw [funext hstep]
    exact Follows.pure hr
  -- what is asked for is told by the cases of the reading, so each case opens
  -- both, and all that is left is how the plans of the parts are put together
  apply readExpr.mutual_induct
  case case1 =>
      intro pos
      exact hquiet (r := .nothing) rfl fun names => by rw [readExpr]
  case case2 =>
      intro pos marked
      rw [asks, if_pos rfl]
      exact hquiet (r := .nothing) rfl fun names => by rw [readExpr, if_pos rfl]
  case case3 =>
      intro pos text marked htext
      rw [asks, if_neg htext]
      simp only [readExpr, if_neg htext]
      exact (Follows.ask pos.row (.text text)).map fun _ _ hk => hk
  case case4 =>
      intro pos value marked
      simp only [readExpr]
      exact Follows.stop pos.row (.error .surrogate)
  case case5 =>
      intro pos value hnone htext htorn
      have hasks : asks site.scope (.constant pos value) = [] := by
        rw [asks]
        exact htext
      rw [hasks]
      refine hquiet (r := .type .any) rfl fun names => ?_
      rw [readExpr]
      · exact hnone
      · exact htext
      · exact htorn
  case case6 =>
      intro pos left right hleft hright
      rw [asks]
      simp only [readExpr]
      exact hleft.both hright fun _ _ _ hk => Reading.mem_structRefs_join hk
  case case7 =>
      intro pos value at_ elts helts
      rw [asks]
      simp only [readExpr]
      exact (applied_follows helts _ _ _).map fun _ _ hk => hk
  case case8 =>
      intro pos value index hindex hread
      have hargs : ArgumentsFollow site [asks site.scope index]
          fun names => [readExpr names site index] :=
        ⟨[fun names => readExpr names site index],
          fun names => rfl, .cons hread .nil⟩
      rw [asks]
      · simp only [readExpr]
        exact (applied_follows hargs _ _ _).map fun _ _ hk => hk
      · exact hindex
  case case9 =>
      intro e hnone htext htorn hconstant hbinary htuple hsubscript
      rw [asks]
      · have hread : (fun names => readExpr names site e) =
            fun names => .type <$> plain names site e := by
          funext names
          rw [readExpr]
          all_goals assumption
        rw [hread]
        exact (plain_follows e).map fun _ _ hk => hk
      all_goals assumption
  case case10 =>
      rw [asksAll]
      exact ⟨[], fun names => by simp only [readExprs, List.map_nil], .nil⟩
  case case11 =>
      intro e es he hes
      obtain ⟨steps, hsteps, hfollow⟩ := hes
      rw [asksAll]
      refine ⟨(fun names => readExpr names site e) :: steps,
        fun names => ?_, .cons he hfollow⟩
      simp only [readExprs, List.map_cons, hsteps]

/-! ## Keeping a contract -/

/-- A fact about every key of a list. -/
def Refers (R : StructKey → Store → Prop) (keys : List StructKey) (s : Store) :
    Prop :=
  ∀ k ∈ keys, R k s

/-- No condition on the store. -/
abbrev Always : Store → Prop := fun _ => True

/-- What is known of the structs that an answer refers to (`refs`), and of a
question that has been answered (`asked`). Both survive what runs later. -/
structure Lasting (C : Contract) (R : StructKey → Store → Prop)
    (V : Ask → Store → Prop) : Prop where
  refs : ∀ k, C.Stable (R k)
  asked : ∀ a, C.Stable (V a)

/-- Asking this question keeps the contract, and `P` as well if it
does not stop. -/
def Answers (C : Contract) (E : Stop → Prop) (P : Store → Prop)
    (R : StructKey → Store → Prop) (V : Ask → Store → Prop) (names : Names)
    (a : Ask) : Prop :=
  ∀ row, Keeps C E P (names.answer (row, a))
    fun t s => P s ∧ Refers R t.structRefs s ∧ V a s

section Keeping

variable {C : Contract} {E : Stop → Prop} {P : Store → Prop}
  {R : StructKey → Store → Prop} {V : Ask → Store → Prop} {names : Names}
  {α : Type} {refs : α → List StructKey} {asked : List Ask}

theorem stable_refers (h : ∀ k, C.Stable (R k)) (keys : List StructKey) :
    C.Stable (Refers R keys) :=
  fun hl hr k hk => h k hl (hr k hk)

/-- A plan keeps the contract if its questions do. When it does not stop, every
one of them has been answered. -/
theorem Plan.Fits.keeps {p : Plan α} (hp : p.Fits site asked refs)
    (hlast : Lasting C R V) (hstop : ∀ stop, p.ending = .error stop → E stop)
    (hanswers : ∀ a ∈ asked, Answers C E P R V names a) :
    Keeps C E P (p.run names)
      fun a s => P s ∧ Refers R (refs a) s ∧ ∀ b ∈ asked, V b s := by
  have hall : Keeps C E P (p.asked.mapM names.answer) fun types s => P s ∧
      List.Forall₂ (fun q t => Refers R t.structRefs s ∧ V q.2 s)
        p.asked types :=
    Keeps.mapM (fun _ _ _ _ hl h =>
      ⟨stable_refers hlast.refs _ hl h.1, hlast.asked _ hl h.2⟩)
      fun q hq => hanswers q.2 (hp.within q hq) q.1
  refine hall.bind fun types => ?_
  cases he : p.ending with
  | error f => exact Keeps.throw (hstop f he)
  | ok f =>
      refine Keeps.pure fun s _ hs => ⟨hs.1, fun k hk => ?_, fun b hb => ?_⟩
      · obtain ⟨t, ht, hk⟩ := List.mem_flatMap.mp (hp.refers f he types k hk)
        obtain ⟨q, _, hq⟩ := forall₂_right hs.2 ht
        exact hq.1 k hk
      · obtain ⟨row, hrow⟩ := hp.whole f he b hb
        obtain ⟨t, _, ht⟩ := forall₂_left hs.2 hrow
        exact ht.2

end Keeping

end BridgeBindings
