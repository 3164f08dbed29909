import BridgeBindings.Proofs.Collected
import BridgeBindings.Proofs.Moving

/-!
# Bridge calls where functions stand elsewhere

A walk over a module with its functions moved meets the same nodes in another
order. If in both versions each app object is known by the time that it is
called, the walks know the same app objects and collect the same objects. These
have the same classes if the statements that give a name that is followed its
last value and its last annotation are the same. In a function that stands above
the assignment of an app object the walk overlooks the calls of the object,
although the function is called when the object is there.
-/

namespace BridgeBindings

open Syntax BridgeCalls

/-! ## What a walk finds in the statements -/

/-- The nodes of a module below its root, in the order of a walk. -/
def Syntax.Module.nodes (m : Module) : List Node :=
  m.body.flatMap fun s => Node.preorder [.stmt s]

/-- The last statement of a body from which something is read. -/
def lastWith {α : Type} (g : Stmt → List α) (body : List Stmt) : Option Stmt :=
  (body.filter fun s => !(g s).isEmpty).getLast?

theorem getLast?_flatMap {α : Type} (g : Stmt → List α) (body : List Stmt) :
    (body.flatMap g).getLast? = (lastWith g body).bind fun s =>
      (g s).getLast? := by
  induction body using List.reverseRecOn with
  | nil => rfl
  | append_singleton body s ih =>
      unfold lastWith at ih ⊢
      rw [List.flatMap_append, List.filter_append]
      cases hs : g s with
      | nil => simp [hs, ih]
      | cons a as => simp [hs, List.getLast?_cons]

theorem Syntax.Moved.lastWith_eq {α : Type} {body body' : List Stmt}
    (h : Moved body body') {g : Stmt → List α}
    (hg : ∀ s ∈ body, s.isFunction → g s = []) :
    lastWith g body = lastWith g body' := by
  refine congrArg List.getLast? (h.filter_eq fun s hs hfunction => ?_)
  rw [hg s hs hfunction]
  rfl

namespace BridgeCalls

variable {bridge : Bridge} {tree tree' : Module}

theorem collect_eq_nodes (bridge : Bridge) (tree : Module) :
    collect bridge tree = upTo bridge tree.nodes := by
  have hstmts : Node.preorder [.module tree] = .module tree :: tree.nodes := by
    rw [Node.preorder, List.append_nil, Node.children,
      Node.preorder_eq_flatMap, Node.stmts, List.flatMap_map]
    rfl
  rw [collect_eq, hstmts]
  rfl

/-- The values that a statement gives a name, if these app objects are known. -/
def valuesIn (bridge : Bridge) (known : BridgeCalls) (name : String)
    (s : Stmt) : List Expr :=
  (Node.preorder [.stmt s]).filterMap (valueAt? bridge known name)

/-- The annotations that a statement gives a name. -/
def annotationsIn (name : String) (s : Stmt) : List Expr :=
  (Node.preorder [.stmt s]).filterMap (annotationAt? name)

/-- The statement that gives a name its last value is the same in both bodies,
and so is the one that annotates it last. -/
structure SettledAlike (bridge : Bridge) (known : BridgeCalls)
    (body body' : List Stmt) (name : String) : Prop where
  value : lastWith (valuesIn bridge known name) body =
    lastWith (valuesIn bridge known name) body'
  annotation : lastWith (annotationsIn name) body =
      lastWith (annotationsIn name) body'

/-- What no function gives a value or an annotation is settled alike. -/
theorem SettledAlike.of_outside {known : BridgeCalls} {body body' : List Stmt}
    (h : Moved body body') {name : String}
    (houtside : ∀ s ∈ body, s.isFunction →
      ∀ n ∈ Node.preorder [.stmt s], name ∉ n.assigned ∧ name ∉ n.annotated) :
    SettledAlike bridge known body body' name := by
  constructor
  · refine h.lastWith_eq fun s hs hfunction =>
      List.filterMap_eq_nil_iff.mpr fun n hn => ?_
    rw [valueAt?, if_neg (houtside s hs hfunction n hn).1]
  · refine h.lastWith_eq fun s hs hfunction =>
      List.filterMap_eq_nil_iff.mpr fun n hn => ?_
    rw [annotationAt?, if_neg (houtside s hs hfunction n hn).2]

/-- What two walks give a name is the same if it is settled alike. -/
theorem Collects.gives_alike {known calls calls' : BridgeCalls} {name : String}
    (h : Collects bridge known tree.nodes calls)
    (h' : Collects bridge known tree'.nodes calls')
    (hname : SettledAlike bridge known tree.body tree'.body name) :
    calls.values.get? name = calls'.values.get? name ∧
      calls.annotations.get? name = calls'.annotations.get? name := by
  have hread : ∀ (g : Node → Option Expr) (tree : Module),
      (tree.nodes.filterMap g).getLast? =
      (lastWith (fun s => (Node.preorder [.stmt s]).filterMap g) tree.body).bind
        fun s =>
        ((Node.preorder [.stmt s]).filterMap g).getLast? := by
    intro g tree
    rw [Module.nodes, List.filterMap_flatMap, getLast?_flatMap]
  constructor
  · rw [h.values, h'.values, hread, hread]
    exact congrArg (Option.bind · _) hname.value
  · rw [h.annotations, h'.annotations, hread, hread]
    exact congrArg (Option.bind · _) hname.annotation

end BridgeCalls

/-- The classes of these expressions, each by its module and its declaration. -/
def Symbols.classesOf (t : Symbols) (scope : Scope) (calls : BridgeCalls)
    (es : List Expr) : List (String × ClassDef) :=
  es.filterMap fun e => (t.classOf scope calls e).map fun c =>
    (c.module, c.decl)

section Versions

variable {s s' : Source}

theorem Source.Version.nodes (h : s.Version s') :
    s.tree.nodes.Perm s'.tree.nodes :=
  h.moved.perm.flatMap_right _

/-- Expressions that lead to names that both walks know alike have the
same classes. -/
theorem Symbols.Alike.classesOf {t u : Symbols} (h : t.Alike u) {a b : Scope}
    (hab : a.Alike b) {calls calls' : BridgeCalls} {es es' : List Expr}
    (hperm : es.Perm es')
    (hsame : ∀ e ∈ es, ∀ id, calls.Leads e id →
      calls.values.get? id = calls'.values.get? id ∧
      calls.annotations.get? id = calls'.annotations.get? id) :
    (t.classesOf a calls es).Perm (u.classesOf b calls' es') := by
  have hclass :
      ∀ e ∈ es, (t.classOf a calls e).map (fun c => (c.module, c.decl)) =
      (u.classOf b calls' e).map fun c => (c.module, c.decl) := by
    intro e he
    have hrel := h.classOfWithin hab maxVariableDepth (hsame e he)
    unfold Symbols.classOf
    generalize t.classOfWithin a calls maxVariableDepth e = x,
      u.classOfWithin b calls' maxVariableDepth e = y at hrel
    cases hrel with
    | none => rfl
    | @some c d hcd =>
        have hmodule : c.module = d.module := hcd.scope.module
        rw [Option.map_some, Option.map_some, hmodule, hcd.decl]
  unfold Symbols.classesOf
  rw [List.filterMap_congr hclass]
  exact hperm.filterMap _

/-- A file is replaced by one in which functions stand elsewhere. If the walk
over the file knows each app object by the time that it is called, the walk over
the other version collects no more. If that walk does so too, it knows the same
app objects; and if the names that are followed get their last values and
annotations from the same statements, what is bound has the same classes, and so
has what is passed. -/
theorem moved_functions_keep_calls {p p' : Program} (hversion : s.Version s')
    (hfiles : p.Substitutes s s' p') (himports : s.ImportsAgree)
    {scope scope' : Scope}
    (hscope : (Symbols.ofProgram p).scope? s.module = some scope)
    (hscope' : (Symbols.ofProgram p').scope? s.module = some scope')
    (bridge : Bridge) (hprompt : Prompt bridge s.tree.nodes) :
    Within (collect bridge s'.tree) (collect bridge s.tree) ∧
    (Prompt bridge s'.tree.nodes →
      (∀ name, name ∈ (collect bridge s.tree).apps ↔
        name ∈ (collect bridge s'.tree).apps) ∧
      ((∀ e ∈ (collect bridge s.tree).bound ++ (collect bridge s.tree).payloads,
        ∀ name,
          (collect bridge s.tree).Leads e name →
            SettledAlike bridge (collect bridge s.tree) s.tree.body
              s'.tree.body name) →
        (∀ c, c ∈ (Symbols.ofProgram p).classesOf scope (collect bridge s.tree)
            (collect bridge s.tree).bound ↔
          c ∈ (Symbols.ofProgram p').classesOf scope' (collect bridge s'.tree)
            (collect bridge s'.tree).bound) ∧
        (∀ c, c ∈ (Symbols.ofProgram p).classesOf scope (collect bridge s.tree)
            (collect bridge s.tree).payloads ↔
          c ∈ (Symbols.ofProgram p').classesOf scope' (collect bridge s'.tree)
            (collect bridge s'.tree).payloads))) := by
  have hnodes := hversion.nodes
  simp only [collect_eq_nodes]
  refine ⟨hprompt.within hnodes.symm, fun hprompt' =>
    ⟨hprompt.apps_iff hprompt' hnodes, ?_⟩⟩
  intro hsettled
  -- a prompt walk collects what the nodes say on their own, in whatever order
  -- they stand, and both versions have the same nodes
  have hcalls := hprompt.follows.collects
  have hcalls' := hprompt.collects hprompt' hnodes
  have halike := hfiles.alike hversion himports
  have hab : scope.Alike scope' := by
    have hrel := halike s.module
    rw [hscope, hscope'] at hrel
    cases hrel with
    | some hab => exact hab
  obtain ⟨hbound, hpayloads⟩ := hcalls.perm hcalls' hnodes
  refine ⟨fun c =>
    (halike.classesOf hab hbound fun e he name hname => ?_).mem_iff,
    fun c => (halike.classesOf hab hpayloads fun e he name hname => ?_).mem_iff⟩
  · exact hcalls.gives_alike hcalls'
      (hsettled e (List.mem_append_left _ he) name hname)
  · exact hcalls.gives_alike hcalls'
      (hsettled e (List.mem_append_right _ he) name hname)

end Versions

namespace Sample

def madeApp : Stmt :=
  .assign ⟨start, 1⟩
    [name "app"] (.call start (.attribute start (name "webbridge") "App") [] [])

/-- A function that hands something to the app object. -/
def handing (id method : String) (given : Expr) : Stmt :=
  .function ⟨start, false, id, ⟨[], [], none, [], none⟩,
    [.expr (.call start (.attribute start (name "app") method) [given] [])], [],
    none⟩

def newShop : Expr := .call start (name "Shop") [] []

def bridgeByName : Bridge :=
  { bridgeModule := "webbridge", localName := some "webbridge" }

/-- The program starts with the app object and a shop that is bound to it, and
has another function below or between them. -/
def shopBelow : Source :=
  source "main" "main" ([usesBridge, .cls shop, madeApp] ++
  ([given "shop" "Shop", handing "main" "bind" (name "shop")] ++
    [handing "note" "emit" newShop]))

def shopBetween : Source :=
  source "main" "main" ([usesBridge, .cls shop, madeApp] ++
  ([handing "note" "emit" newShop] ++
    [given "shop" "Shop", handing "main" "bind" (name "shop")]))

theorem shopBelow_version : shopBelow.Version shopBetween :=
  ⟨rfl, rfl, .of_distinct (List.perm_append_comm.append_left _) rfl (by decide)⟩

theorem substitutes_source (s s' : Source) :
    (program [s]).Substitutes s s' (program [s']) := by
  unfold Program.Substitutes
  rw [files_source, files_source]
  exact .cons (.inr ⟨rfl, rfl⟩) .nil

theorem shopBelow_imports : shopBelow.ImportsAgree := by
  have hnone : ∀ stmt ∈ shopBelow.tree.body, stmt.isFunction →
      (shopBelow.bindingsIn stmt).isEmpty := by
    decide +kernel
  intro f hf id b hb
  rw [List.isEmpty_iff.mp (hnone _ hf rfl)] at hb
  cases hb

theorem shopBelow_settled (known : BridgeCalls) (id : String) :
    SettledAlike bridgeByName known shopBelow.tree.body
      shopBetween.tree.body id := by
  have hnone : ∀ stmt ∈ shopBelow.tree.body, stmt.isFunction →
      ∀ n ∈ Node.preorder [.stmt stmt], n.assigned = [] ∧ n.annotated = [] := by
    decide +kernel
  refine .of_outside shopBelow_version.moved fun stmt hstmt hfunction n hn => ?_
  obtain ⟨hassigned, hannotated⟩ := hnone stmt hstmt hfunction n hn
  rw [hassigned, hannotated]
  exact ⟨List.not_mem_nil, List.not_mem_nil⟩

theorem shop_facts : Prompt bridgeByName shopBelow.tree.nodes ∧
    Prompt bridgeByName shopBetween.tree.nodes ∧
    ∃ c ∈ (Symbols.ofProgram
      (program [shopBelow])).classesOf (.ofSource shopBelow)
      (collect bridgeByName shopBelow.tree)
      (collect bridgeByName shopBelow.tree).bound,
        c.1 = "main" ∧ c.2.name = "Shop" := by
  rw [symbols_source]
  decide +kernel

/-- The shop is bound wherever the other function stands. -/
theorem shop_bound_between : shopBelow.Version shopBetween ∧
    ∃ c ∈ (Symbols.ofProgram
      (program [shopBetween])).classesOf (.ofSource shopBetween)
      (collect bridgeByName shopBetween.tree)
      (collect bridgeByName shopBetween.tree).bound,
        c.1 = "main" ∧ c.2.name = "Shop" := by
  obtain ⟨hprompt, hprompt', c, hc, hshop⟩ := shop_facts
  obtain ⟨-, hsame⟩ :=
    moved_functions_keep_calls shopBelow_version (substitutes_source _ _)
    shopBelow_imports (has_source shopBelow) (has_source shopBetween)
    bridgeByName hprompt
  obtain ⟨-, hclasses⟩ := hsame hprompt'
  obtain ⟨hbound, -⟩ := hclasses fun _ _ id _ => shopBelow_settled _ id
  exact ⟨shopBelow_version, c, (hbound c).mp hc, hshop⟩

/-- The program starts above the app object to which the shop is bound. -/
def appBelow : Source := source "main" "main" ([usesBridge, .cls shop] ++
  ([handing "main" "bind" newShop] ++ [madeApp]))

def appAbove : Source := source "main" "main" ([usesBridge, .cls shop] ++
  ([madeApp] ++ [handing "main" "bind" newShop]))

/-- Only the function moves, and the shop is bound in one version and not
in the other. -/
theorem appBelow_overlooked : appBelow.Version appAbove ∧
    ((appBelow.tree.body.filterMap Scope.functionOf?).map (·.1)).Nodup ∧
    (Symbols.ofProgram (program [appBelow])).classesOf (.ofSource appBelow)
      (collect bridgeByName appBelow.tree)
      (collect bridgeByName appBelow.tree).bound = [] ∧
    ∃ c ∈ (Symbols.ofProgram
      (program [appAbove])).classesOf (.ofSource appAbove)
      (collect bridgeByName appAbove.tree)
      (collect bridgeByName appAbove.tree).bound,
        c.1 = "main" ∧ c.2.name = "Shop" := by
  have hversion : appBelow.Version appAbove :=
    ⟨rfl, rfl, .of_distinct (List.perm_append_comm.append_left _)
      rfl (by decide)⟩
  have hfound :
        ((Symbols.ofProgram (program [appBelow])).classesOf (.ofSource appBelow)
        (collect bridgeByName appBelow.tree)
        (collect bridgeByName appBelow.tree).bound).isEmpty ∧
      ∃ c ∈ (Symbols.ofProgram
        (program [appAbove])).classesOf (.ofSource appAbove)
        (collect bridgeByName appAbove.tree)
        (collect bridgeByName appAbove.tree).bound,
          c.1 = "main" ∧ c.2.name = "Shop" := by
    rw [symbols_source, symbols_source]
    decide +kernel
  exact ⟨hversion, by decide, List.isEmpty_iff.mp hfound.1, hfound.2⟩

end Sample

end BridgeBindings
