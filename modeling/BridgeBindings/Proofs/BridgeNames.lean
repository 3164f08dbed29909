import BridgeBindings.Config.Read
import BridgeBindings.Proofs.Crowding
import BridgeBindings.Proofs.Exposure
import BridgeBindings.Proofs.Objects
import BridgeBindings.Proofs.Reachability
import Mathlib.Data.List.TakeWhile

/-!
# The name that the bridge is known under

A call reaches the bridge by the first part of the name that is called, and this
has to be the name that the entry file is known to import the bridge under. If
the import gives the bridge a name of its own, it binds that name to it. One
that does not binds the first part of the module's name, and that to the module
of this part alone: for a dotted module it is not the bridge, and the file is
taken not to import the bridge at all. Of several names for the bridge the least
is the one that counts.
-/

namespace BridgeBindings

open Syntax BridgeCalls

/-! ## First parts of dotted names -/

theorem splitHead_append (name rest : String) :
    (splitHead (name ++ "." ++ rest)).1 = (splitHead name).1 := by
  have hdot : ".".toList = ['.'] := rfl
  simp only [splitHead, String.toList_append, List.append_assoc, hdot,
    List.takeWhile_append]
  split
  · next hall =>
      rw [(List.takeWhile_prefix _).eq_of_length hall]
      simp
  · rfl

theorem splitHead_eq_iff {name : String} : (splitHead name).1 = name ↔
    '.' ∉ name.toList := by
  unfold splitHead
  rw [← String.toList_inj, String.toList_ofList, List.takeWhile_eq_self_iff]
  constructor
  · intro h hdot
    simpa using h '.' hdot
  · intro h c hc
    simp only [ne_eq, decide_eq_true_eq]
    rintro rfl
    exact h hc

/-! ## What an import binds -/

namespace Syntax.ImportName

/-- The name that an import of a module binds. -/
def bound (n : ImportName) : String := n.asName.getD (splitHead n.name).1

/-- The module that the bound name stands for. -/
def meant (n : ImportName) : String :=
  if n.asName.isSome then n.name else (splitHead n.name).1

theorem meant_eq_iff (n : ImportName) :
    n.meant = n.name ↔ n.asName.isSome ∨ '.' ∉ n.name.toList := by
  unfold meant
  split
  · next h => simp [h]
  · next h => simp [h, splitHead_eq_iff]

/-- A name that is called by way of the import starts with the name
that it binds. -/
theorem head_called (n : ImportName) (h : '.' ∉ n.bound.toList) :
    (splitHead (n.asName.getD n.name)).1 = n.bound := by
  unfold bound at h ⊢
  cases hname : n.asName with
  | none => rfl
  | some name =>
      rw [hname] at h
      exact splitHead_eq_iff.mpr h

end Syntax.ImportName

theorem Imports.ofStmt_importModules (module : String) (isPackage : Bool)
    (names : List ImportName) :
    Imports.ofStmt module isPackage (.importModules names) =
      names.map fun n => (n.bound, ⟨n.meant, none⟩) := by
  unfold ofStmt
  refine List.map_congr_left fun n _ => ?_
  unfold ImportName.bound ImportName.meant
  cases n.asName <;> rfl

namespace Source

/-- All that a file imports, with the names that stand for it. -/
def bindings (s : Source) : List (String × Binding) :=
  (Node.breadthFirst [.module s.tree]).flatMap
    (Imports.ofNode s.module s.isPackageInit)

/-- A file imports a module in its body, and gives the name that the import
binds to nothing else. -/
structure Introduces (s : Source) (n : ImportName) : Prop where
  imports : ∃ names, .importModules names ∈ s.tree.body ∧ n ∈ names
  alone : ∀ b, (n.bound, b) ∈ s.bindings → b = ⟨n.meant, none⟩
  unassigned : ∀ node ∈ Node.preorder [.module s.tree], n.bound ∉ node.assigned
  whole : '.' ∉ n.bound.toList

end Source

theorem mem_breadthFirst_body {m : Module} {s : Stmt} (h : s ∈ m.body) :
    .stmt s ∈ Node.breadthFirst [.module m] := by
  refine Node.mem_breadthFirst_iff.mpr ⟨1, ?_⟩
  simpa [Node.level, Node.children, Node.stmts] using h

/-- A name stands for a module in a scope. -/
def Scope.Calls (s : Scope) (name module : String) : Prop :=
  s.imports.get? name = some ⟨module, none⟩

theorem Source.Introduces.calls {s : Source} {n : ImportName}
    (h : s.Introduces n) : (Scope.ofSource s).Calls n.bound n.meant := by
  obtain ⟨names, hstmt, hn⟩ := h.imports
  have hmem : (n.bound, (⟨n.meant, none⟩ : Binding)) ∈ s.bindings := by
    refine List.mem_flatMap.mpr ⟨_, mem_breadthFirst_body hstmt, ?_⟩
    show _ ∈ Imports.ofStmt s.module s.isPackageInit (.importModules names)
    rw [Imports.ofStmt_importModules]
    exact List.mem_map.mpr ⟨n, hn, rfl⟩
  exact Table.get?_ofList_only hmem h.alone

/-! ## The name for the bridge -/

theorem head?_sortNames {names : List String} {name : String} :
    (sortNames names).head? = some name ↔ name ∈ names ∧ ∀ other ∈ names,
      name ≤ other := by
  have hsorted := sortNames_sorted names
  constructor
  · intro h
    obtain ⟨rest, hrest⟩ := List.head?_eq_some_iff.mp h
    refine ⟨mem_sortNames.mp (by rw [hrest]; exact List.mem_cons_self),
      fun other hother => ?_⟩
    rw [hrest, List.pairwise_cons] at hsorted
    have hmem := mem_sortNames.mpr hother
    rw [hrest] at hmem
    rcases List.mem_cons.mp hmem with rfl | hmem
    · exact String.le_refl _
    · exact hsorted.1 other hmem
  · rintro ⟨hname, hleast⟩
    have hmem := mem_sortNames.mpr hname
    cases hall : sortNames names with
    | nil => rw [hall] at hmem; cases hmem
    | cons first rest =>
        rw [hall] at hmem hsorted
        have hfirst :=
          hleast first
            (mem_sortNames.mp (by rw [hall]; exact List.mem_cons_self))
        rcases List.mem_cons.mp hmem with rfl | hmem
        · rfl
        · exact congrArg some
            (String.le_antisymm
              ((List.pairwise_cons.mp hsorted).1 name hmem) hfirst)

theorem bridgeAlias?_eq_some {s : Source} {module name : String} :
    bridgeAlias? (.ofSource s) module = some name ↔
      (Scope.ofSource s).Calls name module ∧
        ∀ other, (Scope.ofSource s).Calls other module → name ≤ other := by
  have hmem : ∀ other, other ∈
      ((Scope.ofSource s).imports.entries.filter fun e =>
      e.2.name.isNone && e.2.module = module).map (·.1) ↔
        (Scope.ofSource s).Calls other module := by
    intro other
    constructor
    · intro h
      obtain ⟨⟨name, b⟩, he, rfl⟩ := List.mem_map.mp h
      obtain ⟨he, hb⟩ := List.mem_filter.mp he
      have hb' : b = ⟨module, none⟩ := by
        obtain ⟨m, target⟩ := b
        simpa [and_comm] using hb
      rw [hb'] at he
      exact Table.get?_of_mem (Table.nodup_ofList _) he
    · intro h
      refine List.mem_map.mpr
        ⟨(other, ⟨module, none⟩),
          List.mem_filter.mpr ⟨Table.get?_mem h, ?_⟩, rfl⟩
      simp
  show (sortNames (((Scope.ofSource s).imports.entries.filter fun e =>
    e.2.name.isNone && e.2.module = module).map (·.1))).head? = some name ↔ _
  rw [head?_sortNames, hmem]
  simp only [hmem]

theorem bridgeOf_entry (t : Symbols) (config : Config) {file : Source}
    (hstartup : file.tree.hasStartup = true) (hscope : t.Has (.ofSource file)) :
    bridgeOf t config (some file) =
      { bridgeModule := config.bridgeModule
        localName := bridgeAlias? (.ofSource file) config.bridgeModule
        entryModule := some file.module
        bindMethods := config.bindMethods
        bindKeyword := config.bindKeyword } := by
  have hfound : t.scope? file.module = some (.ofSource file) := hscope
  simp only [bridgeOf, hstartup, if_true, hfound, Option.bind_some]

/-! ## Calls by a name -/

namespace BridgeCalls

variable {bridge : Bridge} {calls : BridgeCalls} {n : Node} {nodes : List Node}
    {name : String}

theorem isReceiver_attribute {receiver : Expr}
    (h : receiver.dotted? = some name) (pos : Position)
    (attr : String) :
    calls.isReceiver bridge (.attribute pos receiver attr) = true ↔
      bridge.localName = some (splitHead name).1 ∨
      (splitHead name).1 ∈ calls.apps := by
  have hname : (Expr.attribute pos receiver attr).dotted? =
      some (name ++ "." ++ attr) := by
    rw [Expr.dotted?, h]
    rfl
  unfold isReceiver
  rw [hname]
  simp [splitHead_append]

theorem apps_after (h : name ∉ n.assigned) :
    name ∈ (calls.after bridge n).apps ↔ name ∈ calls.apps := by
  obtain ⟨annotations, -, he | ⟨value, he⟩ | ⟨c, -, he⟩⟩ :=
    after_cases bridge calls n
  · rw [he]
  · rw [he, assign]
    split
    · simp [h]
    · rfl
  · rw [he]

/-- A name that no node assigns is given no result of a call
across the bridge. -/
theorem apps_upTo (h : ∀ n ∈ nodes, name ∉ n.assigned) :
    name ∉ (upTo bridge nodes).apps :=
  List.foldlRecOn (motive := fun acc : BridgeCalls => name ∉ acc.apps) nodes _
    List.not_mem_nil fun _ ih n hn =>
      fun hmem => ih ((apps_after (h n hn)).mp hmem)

end BridgeCalls

/-! ## What is exposed -/

/-- No annotation in the signatures of the methods that a class has
leads to a fault. -/
def Symbols.Presentable (t : Symbols) (c : ProgramClass) : Prop :=
  ∀ scope e, t.Signs c scope e → ∀ f, ¬t.Blames (.expr scope e) f

section Turns

variable {t : Symbols} (hk : t.Keyed)

include hk

/-- No class is being resolved when a bound class has its turn. -/
theorem Turns.lasting {s s' : Store} {xs : List Exposure} (h : Turns t s xs s')
    (hdeclared : ∀ x ∈ xs, t.Declares x.cls)
    (hs : (BridgeBindings.lasting t AnyClass).holds s) :
    ∀ x ∈ xs, (BridgeBindings.lasting t AnyClass).holds x.before := by
  induction h with
  | done => exact fun x hx => absurd hx List.not_mem_nil
  | note r _ ih =>
      exact ih hdeclared ⟨hs.1.alike (alike_of_drafts rfl rfl), hs.2⟩
  | @turn s _ xs c _ ih =>
      have hc := hdeclared ⟨c, s⟩ List.mem_cons_self
      intro x hx
      rcases List.mem_cons.mp hx with rfl | hx
      · exact hs
      · have hafter :=
          (boundMethods_lasts hk (visits_any t) hc s hs trivial).2.1
        exact ih (fun x hx => hdeclared x (List.mem_cons_of_mem _ hx))
          hafter x hx

/-- A class with signatures that resolve does not fail when its turn
comes to an end. -/
theorem Exposure.succeeds_of_presentable {x : Exposure} (hc : t.Declares x.cls)
    (hs : (BridgeBindings.lasting t AnyClass).holds x.before)
    (hended : x.Ends t) (h : t.Presentable x.cls) : x.succeeds t = true := by
  obtain ⟨-, -, hends⟩ :=
    boundMethods_lasts hk (visits_any t) hc x.before hs trivial
  unfold succeeds
  cases houtcome : x.outcome t with
  | ok ms => rfl
  | error e =>
      obtain ⟨f, rfl⟩ := hended e houtcome
      have hr : t.boundMethods x.cls x.before =
          (.error (.fault f), x.after t) :=
        Prod.ext houtcome rfl
      rw [hr] at hends
      rcases hends with ⟨scope, e, hsigns, hblames⟩ | ⟨d, -, b, -, he⟩
      · exact absurd hblames (h scope e hsigns f)
      · cases he

end Turns

/-- Whatever the order in which a program has been resolved, each bound
class has had its turn when the scan is over, unless there is something that
cannot be told. -/
theorem Order.scan_exposed {p : Program}
    (hspelled : (Symbols.ofProgram p).Spelled) (config : Config) (o : Order p) :
    o.BreaksDown config ∨ ∃ resolved surface failures s xs,
      o.run.1 = .ok resolved ∧
      scanSurface (Symbols.ofProgram p) config p.entryFile o.run.2 =
      (.ok (surface, failures), s) ∧
      Exposed (Symbols.ofProgram p)
        ((Symbols.ofProgram p).Binds config p.entryFile) surface
        o.run.2 s xs ∧ ∀ x ∈ xs, x.Ends (Symbols.ofProgram p) := by
  have hk := Symbols.keyed_ofProgram p
  refine (o.run_scans config).imp_right ?_
  rintro ⟨resolved, surface, failures, s, xs, hresolved, hrun, hfilled, hscans⟩
  exact ⟨resolved, surface, failures, s, xs, hresolved, hrun,
    hscans.exposed hk hspelled (fun c hc => hc.declares hk) hfilled,
    hscans.ends⟩

/-- A class that does not fail has all its public methods on the surface. -/
theorem Exposed.methods_of_succeeds {t : Symbols} {bound : ProgramClass → Prop}
    {surface : Surface} {start s : Store} {xs : List Exposure}
    (h : Exposed t bound surface start s xs) {x : Exposure}
    (hx : x ∈ xs) (hok : x.succeeds t = true) {d : ProgramClass}
    (hd : t.Inherits x.cls d) {f : FunctionDef}
    (hf : f ∈ d.decl.publicMethods) :
    ∃ m ∈ surface.methods, m.package = x.cls.package ∧
    m.structName = x.cls.name ∧ m.name = f.name := by
  rcases h.ends x hx with hexposes | hfails
  · obtain ⟨m, hm, hname⟩ :=
      List.mem_map.mp ((hexposes.names f.name).mpr ⟨d, hd, f, hf, rfl⟩)
    obtain ⟨hpackage, hstruct⟩ := hexposes.owned m hm
    exact ⟨m, h.methods.mem_iff.mpr (List.mem_flatMap.mpr ⟨x, hx, hm⟩),
      hpackage, hstruct, hname⟩
  · obtain ⟨fault, hfault⟩ := hfails.fault
    rw [Exposure.succeeds, hfault] at hok
    cases hok

/-- If no name stands for the bridge in the entry file, nothing is exposed. -/
theorem Exposed.methods_of_unknown {t : Symbols} {config : Config}
    {file : Source} {surface : Surface} {start s : Store} {xs : List Exposure}
    (h : Exposed t (t.Binds config (some file)) surface start s xs)
    (hstartup : file.tree.hasStartup = true) (hscope : t.Has (.ofSource file))
    (hnone : ∀ other, ¬(Scope.ofSource file).Calls other config.bridgeModule) :
    surface.methods = [] := by
  have hunknown : bridgeAlias? (.ofSource file) config.bridgeModule = none := by
    rw [Option.eq_none_iff_forall_ne_some]
    intro name hname
    exact hnone name (bridgeAlias?_eq_some.mp hname).1
  have hempty : xs = [] := by
    rw [List.eq_nil_iff_forall_not_mem]
    intro x hx
    obtain ⟨file', id, -, hfile, -, hid, -⟩ :=
      ((h.bound _).mpr (List.mem_map_of_mem hx)).known
    rw [bridgeOf_entry _ config hstartup hscope, hunknown] at hid
    cases hid
  have hmethods := h.methods
  rw [hempty] at hmethods
  exact hmethods.eq_nil

/-- An import of the bridge is the one that the bridge is known by: the name
that it binds stands for the bridge, and no lesser name does. -/
structure Source.KnowsBridge (s : Source) (n : ImportName) : Prop where
  direct : n.asName.isSome ∨ '.' ∉ n.name.toList
  least : ∀ other, (Scope.ofSource s).Calls other n.name → n.bound ≤ other

theorem Source.Introduces.alias_iff {s : Source} {n : ImportName}
    (h : s.Introduces n) : bridgeAlias? (.ofSource s) n.name = some n.bound ↔
    s.KnowsBridge n := by
  rw [bridgeAlias?_eq_some]
  constructor
  · rintro ⟨hcalls, hleast⟩
    refine ⟨n.meant_eq_iff.mp ?_, hleast⟩
    have hsame : some (⟨n.meant, none⟩ : Binding) = some ⟨n.name, none⟩ :=
      h.calls.symm.trans hcalls
    exact congrArg Binding.module (Option.some.inj hsame)
  · rintro ⟨hdirect, hleast⟩
    have hcalls := h.calls
    rw [n.meant_eq_iff.mpr hdirect] at hcalls
    exact ⟨hcalls, hleast⟩

/-- Somewhere in a file, a method of what an import has brought is called, with
a new object of a class among its arguments. -/
structure Source.Hands (t : Symbols) (s : Source) (n : ImportName)
    (method : String) (before : List Node) (call : Call) (c : ProgramClass) :
    Prop where
  walk : ∃ later, Node.preorder [.module s.tree] =
    before ++ .expr (.call call.pos call.func call.args call.keywords) :: later
  called : ∃ pos receiver, call.func = .attribute pos receiver method ∧
    receiver.dotted? = some (n.asName.getD n.name)
  made : ∃ pos func args keywords, .call pos func args keywords ∈ call.args ∧
    func.dotted?.bind (t.lookup (.ofSource s)) = some (.cls c)

section Handing

variable {t : Symbols} {config : Config} {file : Source} {n : ImportName}
  {method : String} {before : List Node} {call : Call} {c : ProgramClass}

theorem Source.Hands.receiver_iff (h : file.Hands t n method before call c)
    (himport : file.Introduces n) (hmodule : n.name = config.bridgeModule)
    (hstartup : file.tree.hasStartup = true) (hscope : t.Has (.ofSource file)) :
    (upTo (bridgeOf t config (some file)) before).isReceiver
      (bridgeOf t config (some file)) call.func = true ↔
      file.KnowsBridge n := by
  obtain ⟨later, hwalk⟩ := h.walk
  obtain ⟨pos, receiver, hfunc, hreceiver⟩ := h.called
  have hunassigned : ∀ node ∈ before, n.bound ∉ node.assigned := by
    intro node hnode
    refine himport.unassigned node ?_
    rw [hwalk]
    exact List.mem_append_left _ hnode
  rw [hfunc, isReceiver_attribute hreceiver, n.head_called himport.whole, ←
    himport.alias_iff, bridgeOf_entry t config hstartup hscope, hmodule]
  exact or_iff_left (apps_upTo hunassigned)

/-- The class is bound if the import is the one that the bridge is known by. -/
theorem Source.Hands.binds (h : file.Hands t n method before call c)
    (himport : file.Introduces n) (hmodule : n.name = config.bridgeModule)
    (hmethod : method ∈ config.bindMethods)
    (hstartup : file.tree.hasStartup = true) (hscope : t.Has (.ofSource file))
    (hknown : file.KnowsBridge n) : t.Binds config (some file) c := by
  have hcall := (h.receiver_iff himport hmodule hstartup hscope).mpr hknown
  obtain ⟨later, hwalk⟩ := h.walk
  obtain ⟨pos, receiver, hfunc, -⟩ := h.called
  obtain ⟨at_, func, args, keywords, harg, hclass⟩ := h.made
  refine ⟨file, .ofSource file, rfl, hscope, .call at_ func args keywords,
    (collected_of_call hwalk hcall).1 _ ?_, ?_⟩
  · have hbinds :
        BridgeCalls.binds (bridgeOf t config (some file)) call = true := by
      rw [bridgeOf_entry t config hstartup hscope, BridgeCalls.binds, hfunc]
      exact List.contains_iff_mem.mpr hmethod
    rw [boundIn, if_pos hbinds]
    exact List.mem_append_left _
      (List.mem_flatMap.mpr ⟨_, harg, List.mem_singleton_self _⟩)
  · rw [Symbols.classOf, Symbols.classOfWithin, Symbols.classOfCall, hclass]

end Handing

/-- An entry file calls the bridge by the name that its import of the bridge
binds. The call is taken for one across the bridge exactly if the import gives
the bridge a name of its own or the bridge's module has a name without dots, and
no lesser name stands for the bridge. Then, unless there is something that
cannot be told, the class of an object that it binds has its turn, and if its
signatures resolve, all its public methods are on the surface. -/
theorem bridge_import_exposes (p : Program)
    (hspelled : (Symbols.ofProgram p).Spelled) (config : Config) (o : Order p)
    {file : Source} (hentry : p.entryFile = some file)
    (hstartup : file.tree.hasStartup = true)
    (hscope : (Symbols.ofProgram p).Has (.ofSource file)) {n : ImportName}
    (hmodule : n.name = config.bridgeModule) (himport : file.Introduces n)
    {method : String} (hmethod : method ∈ config.bindMethods)
    {before : List Node} {call : Call} {c : ProgramClass}
    (hcall : file.Hands (Symbols.ofProgram p) n method before call c) :
    ((upTo (bridgeOf (Symbols.ofProgram p) config p.entryFile)
      before).isReceiver (bridgeOf (Symbols.ofProgram p) config p.entryFile)
      call.func = true ↔ file.KnowsBridge n) ∧
    (o.BreaksDown config ∨ ∃ resolved surface failures s xs,
      o.run.1 = .ok resolved ∧
      scanSurface (Symbols.ofProgram p) config p.entryFile o.run.2 =
      (.ok (surface, failures), s) ∧
      Exposed (Symbols.ofProgram p)
        ((Symbols.ofProgram p).Binds config p.entryFile) surface o.run.2 s xs ∧
      (file.KnowsBridge n → ∃ x ∈ xs, x.cls = c ∧
        ((Symbols.ofProgram p).Presentable c →
          x.succeeds (Symbols.ofProgram p) = true) ∧
        (x.succeeds (Symbols.ofProgram p) = true →
          ∀ d, (Symbols.ofProgram p).Inherits c d → ∀ f ∈ d.decl.publicMethods,
            ∃ m ∈ surface.methods, m.package = c.package ∧
            m.structName = c.name ∧
              m.name = f.name)) ∧
      ((∀ other, ¬(Scope.ofSource file).Calls other config.bridgeModule) →
        surface.methods = [])) := by
  have hk := Symbols.keyed_ofProgram p
  refine ⟨hentry ▸ hcall.receiver_iff himport hmodule hstartup hscope,
    (o.scan_exposed hspelled config).imp_right ?_⟩
  rintro ⟨resolved, surface, failures, s, xs, hresolved, hscan, hexposed, hends⟩
  rw [hentry] at hscan hexposed ⊢
  refine ⟨resolved, surface, failures, s, xs, hresolved, hscan, hexposed,
    fun hknown => ?_, hexposed.methods_of_unknown hstartup hscope⟩
  have hbinds := hcall.binds himport hmodule hmethod hstartup hscope hknown
  obtain ⟨x, hx, rfl⟩ := List.mem_map.mp ((hexposed.bound c).mp hbinds)
  have hdeclared : ∀ x ∈ xs, (Symbols.ofProgram p).Declares x.cls := fun x hx =>
    ((hexposed.bound _).mpr (List.mem_map_of_mem hx)).declares hk
  have hlasting := hexposed.turns.lasting hk hdeclared o.run_lasting x hx
  exact ⟨x, hx, rfl, Exposure.succeeds_of_presentable hk (hdeclared x hx)
    hlasting (hends x hx), fun hok d hd f hf =>
    hexposed.methods_of_succeeds hx hok hd hf⟩

namespace Sample

def dottedConfig : Config := { config with bridgeModule := "my.bridge" }

/-- The call that binds a shop to what an expression stands for. -/
def shopBinding (receiver : Expr) : Call :=
  ⟨start, .attribute start receiver "bind",
    [.call start (name "Shop") [] []], []⟩

def shopBody (receiver : Expr) : List Stmt :=
  [.expr (.call start (shopBinding receiver).func
  (shopBinding receiver).args (shopBinding receiver).keywords)]

/-- A shop that is bound to a bridge with a dotted name. -/
def dottedSource (asName : Option String) (receiver : Expr) : Source :=
  source "main" "main"
    [.importModules [⟨"my.bridge", asName⟩], .cls shop,
      mainFunction (shopBody receiver)]

def dotted (asName : Option String) (receiver : Expr) : Program :=
  program [dottedSource asName receiver]

def dottedShop (asName : Option String) (receiver : Expr) : ProgramClass :=
  ⟨.ofSource (dottedSource asName receiver), shop⟩

section Dotted

variable (asName : Option String) (receiver : Expr)

theorem dotted_shop {c : ProgramClass}
    (hc : (Symbols.ofProgram (dotted asName receiver)).Declares c) :
    c.decl = shop := by
  have hdecl := hc.decl
  rw [has_source_only hc.inTree] at hdecl
  exact List.mem_singleton.mp (Table.mem_values_of_get? hdecl)

theorem dotted_spelled :
    (Symbols.ofProgram (dotted asName receiver)).Spelled := by
  refine ⟨fun c hc => ?_, fun c hc f hf => ?_⟩
  · rw [ProgramClass.name, dotted_shop _ _ hc]
    decide
  · rw [dotted_shop _ _ hc] at hf
    rw [List.mem_singleton.mp hf]
    decide

/-- The nodes up to the call. -/
def dottedHead : List Node :=
  [.module (dottedSource asName receiver).tree,
    .stmt (.importModules [⟨"my.bridge", asName⟩]),
    .stmt (.cls shop)] ++ Node.preorder (Node.stmts shop.body) ++
      [.stmt (mainFunction (shopBody receiver)),
        .parameters ⟨[], [], none, [], none⟩,
        .stmt (.expr
          (.call start (shopBinding receiver).func
            (shopBinding receiver).args []))]

theorem dotted_walk :
    ∃ later, Node.preorder [.module (dottedSource asName receiver).tree] =
    dottedHead asName receiver ++ .expr (.call start (shopBinding receiver).func
      (shopBinding receiver).args (shopBinding receiver).keywords) ::
      later := by
  refine ⟨Node.preorder (Node.ofExpr (.call start (shopBinding receiver).func
    (shopBinding receiver).args (shopBinding receiver).keywords)), ?_⟩
  simp [Node.preorder, Node.children, Node.stmts, Node.exprs, Node.exprs?,
    Node.ofStmt, Node.ofExpr, Node.ofParameters, dottedSource, source,
    dottedHead, shop, cls, mainFunction, shopBody, shopBinding, name]

theorem dotted_hands (h : receiver.dotted? = some (asName.getD "my.bridge")) :
    (dottedSource asName receiver).Hands
      (Symbols.ofProgram (dotted asName receiver)) ⟨"my.bridge", asName⟩ "bind"
      (dottedHead asName receiver) (shopBinding receiver)
        (dottedShop asName receiver) where
  walk := dotted_walk asName receiver
  called := ⟨start, receiver, rfl, h⟩
  made := by
    refine ⟨start, name "Shop", [], [], List.mem_singleton_self _, ?_⟩
    rw [show Symbols.ofProgram (dotted asName receiver) =
      _ from symbols_source _]
    rfl

theorem bases_dottedShop : (Symbols.ofProgram (dotted asName receiver)).bases
    (dottedShop asName receiver) = [] := by
  rw [show Symbols.ofProgram (dotted asName receiver) = _ from symbols_source _]
  rfl

/-- The one method of the shop has no annotation that callers see. -/
theorem dotted_presentable :
    (Symbols.ofProgram (dotted asName receiver)).Presentable
    (dottedShop asName receiver) := by
  rintro scope e ⟨d, hd, -, f, hf, he⟩
  have hshop : d = dottedShop asName receiver := by
    rcases (Symbols.inherits_of_mem hd).cases_head with rfl | ⟨b, hb, -⟩
    · rfl
    · rw [bases_dottedShop] at hb
      cases hb
  rw [hshop] at hf
  rw [List.mem_singleton.mp hf] at he
  cases he

variable {asName} {receiver}

theorem introduces_of_single {s : Source} {n : ImportName}
    (himport : .importModules [n] ∈ s.tree.body)
    (hbindings : s.bindings = [(n.bound, ⟨n.meant, none⟩)])
    (hunassigned : ∀ node ∈ Node.preorder [.module s.tree],
      n.bound ∉ node.assigned)
    (hwhole : '.' ∉ n.bound.toList) : s.Introduces n := by
  refine ⟨⟨[n], himport, List.mem_singleton_self n⟩,
    fun b hb => ?_, hunassigned, hwhole⟩
  rw [hbindings] at hb
  exact congrArg Prod.snd (List.mem_singleton.mp hb)

/-- The one import is all that a name can come from. -/
theorem calls_of_single {s : Source} {n : ImportName} {other module : String}
    (hbindings : s.bindings = [(n.bound, ⟨n.meant, none⟩)])
    (h : (Scope.ofSource s).Calls other module) :
    other = n.bound ∧ module = n.meant := by
  have hmem : (other, (⟨module, none⟩ : Binding)) ∈ s.bindings :=
    Table.get?_ofList_mem h
  rw [hbindings] at hmem
  have he := List.mem_singleton.mp hmem
  exact ⟨congrArg Prod.fst he, congrArg (·.2.module) he⟩

end Dotted

def ownName : ImportName := ⟨"my.bridge", some "ui"⟩

def fullName : ImportName := ⟨"my.bridge", none⟩

/-- The bridge under its full name. -/
def fullReceiver : Expr := .attribute start (name "my") "bridge"

theorem ownName_bindings : (dottedSource (some "ui") (name "ui")).bindings =
    [(ownName.bound, ⟨ownName.meant, none⟩)] := by
  decide +kernel

theorem fullName_bindings : (dottedSource none fullReceiver).bindings =
    [(fullName.bound, ⟨fullName.meant, none⟩)] := by
  decide +kernel

theorem ownName_introduces :
    (dottedSource (some "ui") (name "ui")).Introduces ownName :=
  introduces_of_single List.mem_cons_self ownName_bindings (by decide +kernel)
    (by decide +kernel)

theorem fullName_introduces :
    (dottedSource none fullReceiver).Introduces fullName :=
  introduces_of_single List.mem_cons_self fullName_bindings (by decide +kernel)
    (by decide +kernel)

/-- The scope of the one file. -/
def dottedSymbols (asName : Option String) (receiver : Expr) : Symbols :=
  ⟨.ofList [("main", .ofSource (dottedSource asName receiver))]⟩

def dottedCalls (asName : Option String) (receiver : Expr) : BridgeCalls :=
  BridgeCalls.collect
    (bridgeOf (dottedSymbols asName receiver) dottedConfig
      (some (dottedSource asName receiver)))
    (dottedSource asName receiver).tree

/-- Nothing is without a text where whatever is bound is of a class. -/
theorem dotted_told {asName : Option String} {receiver : Expr}
    (h : (dottedCalls asName receiver).bound.all
      (fun e => ((dottedSymbols asName receiver).classOf
      (.ofSource (dottedSource asName receiver))
      (dottedCalls asName receiver) e).isSome) = true) :
    ¬(Order.sorted (dotted asName receiver)).BreaksDown dottedConfig := by
  rintro ⟨b, huntold, -⟩
  refine shops_told (fun c hc => dotted_shop _ _ hc)
    (fun scope name value halias => ?_)
    (fun file scope hfile hscope e he => ?_) b huntold
  · rw [has_source_only halias.inTree] at halias
    exact nomatch halias.decl
  · cases hfile
    rw [show Symbols.ofProgram (dotted asName receiver) =
      _ from symbols_source _] at hscope he ⊢
    cases hscope
    exact Option.isSome_iff_ne_none.mp (List.all_eq_true.mp h e he)

/-- The bridge has a name of its own, and the shop is exposed. -/
theorem ownName_exposes : ∃ surface failures s,
    scanSurface (Symbols.ofProgram (dotted (some "ui") (name "ui")))
      dottedConfig (dotted (some "ui") (name "ui")).entryFile
      (Order.sorted (dotted (some "ui") (name "ui"))).run.2 =
        (.ok (surface, failures), s) ∧
    ∃ m ∈ surface.methods, m.package = "main" ∧ m.structName = "Shop" ∧
    m.name = "open" := by
  obtain ⟨-, hbroken |
      ⟨-, surface, failures, s, xs, -, hscan, -, hexposes, -⟩⟩ :=
    bridge_import_exposes (dotted (some "ui") (name "ui"))
      (dotted_spelled _ _) dottedConfig (.sorted _) rfl rfl (has_source _)
      (n := ownName) rfl ownName_introduces
        (List.mem_singleton_self "bind") (dotted_hands _ _ rfl)
  · exact absurd hbroken (dotted_told (by decide +kernel))
  have hknown : (dottedSource (some "ui") (name "ui")).KnowsBridge ownName := by
    refine ⟨.inl rfl, fun other hother => ?_⟩
    exact (calls_of_single ownName_bindings hother).1 ▸ String.le_refl _
  obtain ⟨x, -, -, hpresentable, hmethods⟩ := hexposes hknown
  exact ⟨surface, failures, s, hscan,
    hmethods (hpresentable (dotted_presentable _ _)) _ .refl _
    (List.mem_singleton_self _)⟩

/-- The bridge is imported and called under its full name, and
nothing is exposed. -/
theorem fullName_exposes_nothing :
    Text.isDottedIdentifier dottedConfig.bridgeModule = true ∧
    (dottedSource none fullReceiver).tree.hasStartup = true ∧
    (dottedSource none fullReceiver).Introduces fullName ∧
    (dottedSource none fullReceiver).Hands
      (Symbols.ofProgram (dotted none fullReceiver)) fullName
      "bind" (dottedHead none fullReceiver) (shopBinding fullReceiver)
      (dottedShop none fullReceiver) ∧
    (Symbols.ofProgram (dotted none fullReceiver)).Presentable
      (dottedShop none fullReceiver) ∧
    shop.publicMethods.map (·.name) = ["open"] ∧
    ∃ surface failures s,
      scanSurface (Symbols.ofProgram (dotted none fullReceiver)) dottedConfig
      (dotted none fullReceiver).entryFile
      (Order.sorted (dotted none fullReceiver)).run.2 =
        (.ok (surface, failures), s) ∧ surface.methods = [] := by
  obtain hbroken | ⟨-, surface, failures, s, xs, -, hscan, hexposed, -⟩ :=
    (Order.sorted (dotted none fullReceiver)).scan_exposed
      (dotted_spelled _ _) dottedConfig
  · exact absurd hbroken (dotted_told (by decide +kernel))
  refine ⟨by decide +kernel, rfl, fullName_introduces, dotted_hands _ _ rfl,
    dotted_presentable _ _, rfl, surface, failures, s, hscan,
    hexposed.methods_of_unknown rfl (has_source _) ?_⟩
  intro other hother
  exact absurd (calls_of_single fullName_bindings hother).2 (by decide +kernel)

end Sample

end BridgeBindings
