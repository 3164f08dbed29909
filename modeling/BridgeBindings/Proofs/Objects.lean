import BridgeBindings.Proofs.Charges
import BridgeBindings.Proofs.Stages
import BridgeBindings.Proofs.Walks

/-!
# The class of a variable

A module has one table of values, filled in the course of the walk over all
its bodies and read when the walk is over. So a variable that is handed to
the bridge has the class of what was assigned to it last in the module, by
the order of the text and wherever the call stands; what it had at the call
does not matter.
-/

namespace BridgeBindings

open Syntax BridgeCalls

/-- How a module talks to the bridge, if it does: the entry module
under the name that the analysis has found there, every other under its
own name for it. -/
def Bridge.within (bridge : Bridge) (scope : Scope) : Option Bridge :=
  (if bridge.entryModule = some scope.module then bridge.localName
    else bridgeAlias? scope bridge.bridgeModule).map
      fun name => { bridge with localName := some name }

/-- The last assignment of a name in a module makes an object of a class by a
call that does not cross the bridge, and nothing annotates the name. -/
structure LastMakes (t : Symbols) (bridge : Bridge) (scope : Scope)
    (name : String) (c : ProgramClass) : Prop where
  makes : ∃ before span targets pos func args keywords later,
    Node.preorder [.module scope.source.tree] =
      before ++ .stmt
        (.assign span targets (.call pos func args keywords)) :: later ∧
    name ∈ targets.filterMap targetName? ∧
    func.dotted?.bind (t.lookup scope) = some (.cls c) ∧
    (upTo bridge before).isReceiver bridge func = false ∧
    ∀ n ∈ later, name ∉ n.assigned
  unannotated : ∀ n ∈ Node.preorder [.module scope.source.tree],
      name ∉ n.annotated

section Variables

variable {t : Symbols} {bridge : Bridge} {scope : Scope} {name : String}
    {c : ProgramClass}

theorem Symbols.classOf_name (t : Symbols) (scope : Scope)
    {calls : BridgeCalls} {value : Expr}
    (hnone : calls.annotations.get? name = none)
    (hvalue : calls.values.get? name = some value) (pos : Position) :
    t.classOf scope calls (.name pos name) =
    t.classOfWithin scope calls 7 value := by
  rw [classOf, maxVariableDepth, classOfWithin.eq_def]
  simp only [hnone, hvalue, Option.bind_none]

/-- What the module says last is what the variable is taken for. -/
theorem LastMakes.classOf (h : LastMakes t bridge scope name c)
    (pos : Position) :
    t.classOf scope (collect bridge scope.source.tree)
    (.name pos name) = some c := by
  obtain ⟨before, span, targets, at_, func, args, keywords, later, hwalk,
    hname, hclass, hown, hlast⟩ := h.makes
  have hvalue := value_of_last hwalk hname hown hlast
  rw [t.classOf_name scope (annotations_none h.unannotated) hvalue,
    Symbols.classOfWithin, Symbols.classOfCall, hclass]

/-- A variable among the positional arguments is bound or passed. -/
theorem handed_of_arg {call : Call} {pos : Position}
    (h : .name pos name ∈ call.args) : .name pos name ∈ if binds bridge call
      then boundIn bridge call else passedIn bridge call := by
  unfold boundIn passedIn
  split
  · exact List.mem_append_left _
      (List.mem_flatMap.mpr ⟨_, h, List.mem_singleton_self _⟩)
  · exact List.mem_append_left _ (List.mem_filter.mpr ⟨h, rfl⟩)

/-- In the entry module the bridge is the one that the analysis has found. -/
theorem within_entry {config : Config} {file : Source}
    (hstartup : file.tree.hasStartup = true) (hfile : file = scope.source)
    (hbridge : (bridgeOf t config (some file)).within scope = some bridge) :
    bridge = bridgeOf t config (some file) := by
  have hentry : (bridgeOf t config (some file)).entryModule =
      some scope.module := by
    rw [bridgeOf, if_pos hstartup, hfile]
    rfl
  rw [Bridge.within, if_pos hentry] at hbridge
  obtain ⟨id, hlocal, rfl⟩ := Option.map_eq_some_iff.mp hbridge
  rw [← hlocal]

theorem payloadClasses_within {outer : Bridge}
    (h : outer.within scope = some bridge) : payloadClasses t outer scope =
    (collect bridge scope.source.tree).payloads.filterMap
      (t.classOf scope (collect bridge scope.source.tree)) := by
  obtain ⟨id, hlocal, rfl⟩ := Option.map_eq_some_iff.mp h
  unfold payloadClasses
  rw [hlocal]

theorem mem_sortedScopes (h : t.Has scope) : scope ∈ t.sortedScopes :=
  List.mem_map.mpr
    ⟨(scope.module, scope), List.mem_mergeSort.mpr (Table.get?_mem h), rfl⟩

/-- A class whose object a module passes is a seed if its struct is its own. -/
theorem seed_of_payload {outer : Bridge} (hs : t.Has scope)
    (hbridge : outer.within scope = some bridge) {e : Expr}
    (he : e ∈ (collect bridge scope.source.tree).payloads)
    (hc : t.classOf scope (collect bridge scope.source.tree) e = some c)
    {s : Store} (howns : (s.draft c.package).owns c.name c.module = true) :
    (scope.module, c) ∈ payloadSeeds t outer s := by
  refine List.mem_flatMap.mpr
    ⟨scope, mem_sortedScopes hs, List.mem_map.mpr ⟨c, ?_, rfl⟩⟩
  rw [payloadClasses_within hbridge]
  exact List.mem_filter.mpr ⟨List.mem_filterMap.mpr ⟨e, he, hc⟩, howns⟩

end Variables

/-- A variable that is handed to the bridge, in whatever call of a module, has
the class of what was assigned to it last in the module. Its class is bound if
the module is the entry, and a seed if the variable is passed and the struct is
registered for the class. -/
theorem variable_class_of_last (p : Program) (config : Config) {scope : Scope}
    {bridge : Bridge} {name : String} {c : ProgramClass}
    (hs : (Symbols.ofProgram p).Has scope)
    (hbridge : (bridgeOf (Symbols.ofProgram p) config p.entryFile).within
      scope = some bridge)
    (hlast : LastMakes (Symbols.ofProgram p) bridge scope name c)
    {before later : List Node} {call : Call}
    (hwalk : Node.preorder [.module scope.source.tree] =
      before ++ .expr
        (.call call.pos call.func call.args call.keywords) :: later)
    (hcall : (upTo bridge before).isReceiver bridge call.func = true)
    (pos : Position) :
    (Symbols.ofProgram p).classOf scope (collect bridge scope.source.tree)
      (.name pos name) = some c ∧
    (.name pos name ∈ call.args →
      .name pos name ∈ if binds bridge call then boundIn bridge call
        else passedIn bridge call) ∧
    (.name pos name ∈ boundIn bridge call →
      .name pos name ∈ (collect bridge scope.source.tree).bound ∧
      (p.entryFile = some scope.source → scope.source.tree.hasStartup = true →
        (Symbols.ofProgram p).Binds config p.entryFile c)) ∧
    (.name pos name ∈ passedIn bridge call →
      .name pos name ∈ (collect bridge scope.source.tree).payloads ∧
      ∀ s : Store, (s.draft c.package).owns c.name c.module = true →
        (scope.module, c) ∈ payloadSeeds (Symbols.ofProgram p)
          (bridgeOf (Symbols.ofProgram p) config p.entryFile) s) := by
  -- the classes are told after the walk, so the last assignment counts wherever
  -- the call stands
  obtain ⟨hbound, hpassed⟩ := collected_of_call hwalk hcall
  have hclass := hlast.classOf pos
  refine ⟨hclass, handed_of_arg,
    fun h => ⟨hbound _ h, fun hentry hstartup => ?_⟩,
    fun h => ⟨hpassed _ h, fun s howns =>
      seed_of_payload hs hbridge (hpassed _ h) hclass howns⟩⟩
  rw [hentry] at hbridge ⊢
  have hsame := within_entry hstartup rfl hbridge
  rw [hsame] at hbound hclass
  refine ⟨scope.source, scope, rfl, hs, _, hbound _ ?_, hclass⟩
  rw [← hsame]
  exact h

namespace Sample

def given (id made : String) : Stmt :=
  .assign ⟨start, 1⟩ [name id] (.call start (name made) [] [])

/-- The call that binds what a name stands for. -/
def binding (id : String) : Call :=
  ⟨start, .attribute start (name "webbridge") "bind", [name id], []⟩

def bound (id : String) : Stmt :=
  .expr (.call start (binding id).func (binding id).args (binding id).keywords)

def formerCls : ClassDef := cls "A" [] [.other]

def latterCls : ClassDef := cls "B" [] [.other]

def reusedBody : List Stmt :=
  [given "s" "A", bound "s", given "s" "B", bound "s"]

def reusedSource : Source := source "main" "main"
  [usesBridge, .cls formerCls, .cls latterCls, mainFunction reusedBody]

/-- A variable that is bound, given another object and bound again. -/
def reused : Program := program [reusedSource]

def reusedScope : Scope := .ofSource reusedSource

/-- The nodes of the module up to the body of its function. -/
def reusedHead : List Node :=
  [.module reusedSource.tree, .stmt usesBridge,
    .stmt (.cls formerCls), .stmt .other, .stmt (.cls latterCls), .stmt .other,
    .stmt (mainFunction reusedBody), .parameters ⟨[], [], none, [], none⟩]

def givenNodes (id made : String) : List Node :=
  [.stmt (given id made), .expr (name id),
    .expr (.call start (name made) [] []), .expr (name made)]

def boundNodes (id : String) : List Node :=
  [.stmt (bound id),
    .expr (.call start (binding id).func (binding id).args
      (binding id).keywords),
    .expr (binding id).func, .expr (name "webbridge"), .expr (name id)]

theorem reused_walk :
    Node.preorder [.module reusedScope.source.tree] = reusedHead ++
    (givenNodes "s" "A" ++
      (boundNodes "s" ++ (givenNodes "s" "B" ++ boundNodes "s"))) := by
  simp [Node.preorder, Node.children, Node.stmts, Node.exprs, Node.exprs?,
    Node.ofStmt, Node.ofExpr, Node.ofParameters, reusedScope, Scope.ofSource,
    reusedSource, source, reusedHead, usesBridge,
    formerCls, latterCls, cls, mainFunction, reusedBody, given, bound,
    binding, givenNodes, boundNodes, name]

def reusedBridge : Bridge :=
  bridgeOf (Symbols.ofProgram reused) config reused.entryFile

def reusedCalls : BridgeCalls := collect reusedBridge reusedSource.tree

/-- The nodes up to the first call, and those up to the assignment
that comes last. -/
def reusedUpToCall : List Node :=
  reusedHead ++ (givenNodes "s" "A" ++ [.stmt (bound "s")])

def reusedUpToLast : List Node :=
  reusedHead ++ (givenNodes "s" "A" ++ boundNodes "s")

theorem reused_facts : (reusedBridge.within reusedScope = some reusedBridge ∧
      reusedSource.tree.hasStartup = true) ∧
    ((upTo reusedBridge reusedUpToCall).isReceiver reusedBridge
      (binding "s").func = true ∧
      (upTo reusedBridge reusedUpToLast).isReceiver reusedBridge
        (name "B") = false) ∧
    ((Symbols.ofProgram reused).classOf reusedScope reusedCalls (name "s")).map
      (·.name) = some "B" ∧
    reusedCalls.bound.all (fun e => decide
      (((Symbols.ofProgram reused).classOf reusedScope reusedCalls e).map
        (·.name) = some "B")) := by
  unfold reusedCalls reusedBridge
  rw [show Symbols.ofProgram reused = _ from symbols_source reusedSource]
  decide +kernel

/-- The first call stands right behind `s = A()`, but no object of that
class is bound. -/
theorem reused_stale :
      ∃ before later, Node.preorder [.module reusedScope.source.tree] =
      before ++ (givenNodes "s" "A" ++ (boundNodes "s" ++ later)) ∧
    reusedBridge.within reusedScope = some reusedBridge ∧
    (Symbols.ofProgram reused).Declares ⟨reusedScope, formerCls⟩ ∧
    (Symbols.ofProgram reused).classOf reusedScope reusedCalls (name "s") ≠
      some ⟨reusedScope, formerCls⟩ ∧
    ¬(Symbols.ofProgram reused).Binds config reused.entryFile
      ⟨reusedScope, formerCls⟩ := by
  obtain ⟨⟨hwithin, -⟩, -, hclass, hall⟩ := reused_facts
  have hhas : (Symbols.ofProgram reused).Has reusedScope :=
    has_source reusedSource
  refine ⟨reusedHead, _, reused_walk, hwithin, ⟨hhas, rfl⟩, fun h => ?_, ?_⟩
  · rw [h] at hclass
    exact absurd hclass (by decide)
  · rintro ⟨file, scope, hentry, hscope, e, he, hc⟩
    obtain rfl : reusedSource = file := Option.some.inj hentry
    obtain rfl : reusedScope = scope := Option.some.inj (hhas.symm.trans hscope)
    have hlatter := of_decide_eq_true (List.all_eq_true.mp hall e he)
    rw [show (Symbols.ofProgram reused).classOf reusedScope reusedCalls
      e = _ from hc] at hlatter
    exact absurd hlatter (by decide)

theorem reused_last :
    LastMakes (Symbols.ofProgram reused) reusedBridge reusedScope "s"
    ⟨reusedScope, latterCls⟩ := by
  refine ⟨⟨reusedUpToLast, ⟨start, 1⟩, [name "s"], start, name "B", [], [],
    (givenNodes "s" "B").tail ++ boundNodes "s", reused_walk, by
      decide, ?_, ?_, ?_⟩, ?_⟩
  · rw [show Symbols.ofProgram reused = _ from symbols_source reusedSource]
    rfl
  · exact reused_facts.2.1.2
  · decide
  · rw [reused_walk]
    decide

/-- The first call binds the class of what is assigned behind it. -/
theorem reused_class : ∃ before later,
    (Symbols.ofProgram reused).Has reusedScope ∧
    reusedBridge.within reusedScope = some reusedBridge ∧
    LastMakes (Symbols.ofProgram reused) reusedBridge reusedScope "s"
      ⟨reusedScope, latterCls⟩ ∧
    Node.preorder [.module reusedScope.source.tree] = before ++
    .expr (.call (binding "s").pos
      (binding "s").func (binding "s").args (binding "s").keywords) :: later ∧
    (upTo reusedBridge before).isReceiver reusedBridge
      (binding "s").func = true ∧
    (Symbols.ofProgram reused).Binds config reused.entryFile
      ⟨reusedScope, latterCls⟩ := by
  obtain ⟨⟨hwithin, hstartup⟩, ⟨hcall, -⟩, -⟩ := reused_facts
  have hwalk : Node.preorder [.module reusedScope.source.tree] =
      reusedUpToCall ++
      .expr (.call (binding "s").pos (binding "s").func (binding "s").args
        (binding "s").keywords) :: _ :=
    reused_walk
  have hhas : (Symbols.ofProgram reused).Has reusedScope :=
    has_source reusedSource
  obtain ⟨-, -, hbinds, -⟩ :=
    variable_class_of_last reused config hhas hwithin reused_last
    hwalk hcall start
  exact ⟨reusedUpToCall, _, hhas, hwithin, reused_last, hwalk, hcall,
    (hbinds (List.mem_singleton_self _)).2 rfl hstartup⟩

end Sample

end BridgeBindings
