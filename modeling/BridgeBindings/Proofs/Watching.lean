import BridgeBindings.Proofs.Survey

/-!
# Which classes are resolved

A class is resolved where an annotation names it, where it is a base of another
one, or where the analysis itself asks for it, and each of these may happen
anywhere in a run, also in one that stops. To tell which classes ever are, the
expansion of classes is put under a watch: a step of any kind that runs before
each of them. A watch that is silent about some classes leaves the analysis as
it is if no other class is ever resolved, and if one was, some watch would stop
there, or write it down.

An analysis comes by its expansion only once, so it is first written for
any. With two expansions that agree on the classes that may be visited, it
is the same analysis.
-/

namespace BridgeBindings

open Syntax Analyze

/-! ## An analysis with any expansion

Each definition is that of the analysis, with an expansion where that takes the
program's own. -/

namespace Expansion

variable (x : Expansion) (t : Symbols)

/-- The type of an annotation that may be missing. -/
def annotation? (site : Site) : Option Expr → Resolve TypeRef
  | some e => annotationWith t x site e
  | none => return .any

/-- A method with its parameters and its result. -/
def describe (declarer : ProgramClass) (owner : StructKey) (f : FunctionDef) :
    Resolve BoundMethod := do
  let site (declaration : String) : Site :=
    ⟨declarer.scope, owner.package, declaration⟩
  let params ← (Symbols.callerParams f).mapM fun p =>
    return MethodParam.mk p.name
      (← x.annotation? t (site (Symbols.paramLabel owner f p)) p.typeExpr)
  let result ←
    if Symbols.returnsNothing f then pure none
    else some <$> x.annotation? t (site (Symbols.resultLabel owner f)) f.returns
  return ⟨owner.package, owner.name, f.name, params, result,
    declarer.scope.source.notes.functionDoc f, f.isAsync⟩

/-- Adds the methods of one class of a hierarchy, over those of
the same name. -/
def describeAll (owner : StructKey) (methods : Table BoundMethod)
    (d : ProgramClass) : Resolve (Table BoundMethod) := do
  Resolve.expect d.decl.methodBreakdown?
  d.decl.publicMethods.foldlM
    (fun methods f => return methods.insert f.name (← x.describe t d owner f))
      methods

/-- The methods of a class and its bases, each under its name. -/
def describedMethods (c : ProgramClass) : Resolve (Table BoundMethod) :=
  (t.classChain c).foldlM (x.describeAll t c.key) .empty

/-- The methods that a class exposes, added to its package. -/
def boundMethods (c : ProgramClass) : Resolve (List BoundMethod) :=
  x.describedMethods t c >>= addDescribed c.package

/-- One bound object: its class exposes its methods, fails, or has been seen. -/
def addObject (entry : Source) (scope : Scope) (calls : BridgeCalls)
    (scan : SurfaceScan) (e : Expr) : Resolve SurfaceScan := do
  match t.classOf scope calls e with
  | none =>
    Resolve.note (unknownObject entry e.row (← Resolve.lift e.text))
    return scan
  | some c =>
    if scan.seen.contains c.qualifiedName then return scan
    else
      let scan := { scan with seen := c.qualifiedName :: scan.seen }
      match ← (x.boundMethods t c).attempt with
      | .ok methods =>
        return { scan with
          boundStructs := scan.boundStructs ++ [c.key.text]
          methods := scan.methods ++ methods }
      | .error f =>
        Resolve.note ⟨.error, .surface, f.text⟩
        return { scan with failures := scan.failures.insertNew c.package f }

/-- What the program exposes, and the packages that fail over it. -/
def scanSurface (config : Config) (entry : Option Source) :
    Resolve (Surface × Table TypeFault) := do
  let bridge := bridgeOf t config entry
  match entry, bridge.entryModule with
  | some entry, some _ =>
    let surface : Surface := { bridge, entryPackage := some entry.package }
    match bridge.localName, t.scope? entry.module with
    | some _, some scope =>
      let calls := BridgeCalls.collect bridge entry.tree
      let scan ← calls.bound.foldlM (x.addObject t entry scope calls) {}
      let methods := scan.methods.mergeSort fun a b =>
        decide (a.qualifiedName ≤ b.qualifiedName)
      Resolve.note (exposedCount methods.length scan.boundStructs.length)
      return ({ surface with
        boundStructs := sortNames scan.boundStructs, methods }, scan.failures)
    | _, _ =>
      Resolve.note (noBridge entry bridge.bridgeModule)
      return (surface, .empty)
  | _, _ =>
    Resolve.note noStartup
    return ({ bridge }, .empty)

/-- Resolves some classes, one after the other. -/
def resolveAll (classes : List ProgramClass) : Resolve Unit :=
  classes.forM fun c => discard (x.cls c)

/-- Resolves the classes of a package and charges it with the fault
that stops them. -/
def resolvePackage (classes : List ProgramClass) (failures : Table TypeFault)
    (package : String) : Analyze (Table TypeFault) := do
  match ← ofResolve
      (x.resolveAll (classes.filter (·.package = package))).attempt with
  | .ok () => return failures
  | .error f =>
    Analyze.note ⟨.error, .analysis, f.text⟩
    return charge failures package f

/-- Resolves the structs of a package that still wait. -/
def finishPackage (failures : Table TypeFault) (package : String) :
    Analyze (Table TypeFault) := do
  if failures.contains package then return failures
  else
    let d := (← get).draft package
    let waiting := (d.pending.filterMap d.get?).filterMap (classOfStruct? t)
    match ← ofResolve (x.resolveAll waiting).attempt with
    | .ok () => return failures
    | .error f => return failures.insert package f

/-- The analysis of a program, with an expansion instead of its own. -/
def program (config : Config) (p : Program) : Analyze AnalysisResult := do
  let t := Symbols.ofProgram p
  let packages := sortNames p.packages.keys
  ofResolve (registerRecords t (classes t))
  let failures ← packages.foldlM (x.resolvePackage (records t)) .empty
  let (surface, scanned) ← ofResolve (x.scanSurface t config p.entryFile)
  let failures :=
    scanned.entries.foldl
      (fun fs (package, f) => chargeLater fs package f) failures
  let failures ← packages.foldlM (x.finishPackage t) failures
  modify (classify t surface)
  let start : AnalysisResult :=
    { root := p.root, rootPackage := p.rootPackage, surface }
  packages.foldlM (buildPackage failures) start

end Expansion

/-- With the expansion that a program has of its own, it is the analysis. -/
theorem program_expansion (config : Config) (p : Program) :
    (Symbols.ofProgram p).expansion.program config p =
    Analyze.program config p := rfl

/-! ## Expansions that agree -/

/-- Two expansions that do the same with the classes that may be visited. -/
structure Expansion.Agrees (x y : Expansion) (t : Symbols)
    (visited : ProgramClass → Prop) : Prop where
  cls : ∀ c, t.Declares c → visited c → x.cls c = y.cls c
  aliased : ∀ site scope name value, t.DeclaresAlias scope name value →
    x.aliased site scope name value = y.aliased site scope name value

theorem foldlM_congr {m : Type → Type} [Monad m] {β γ : Type} {xs : List γ}
    {f g : β → γ → m β} (h : ∀ b, ∀ x ∈ xs, f b x = g b x) (b : β) :
    xs.foldlM f b = xs.foldlM g b := by
  induction xs generalizing b with
  | nil => rfl
  | cons x xs ih =>
      rw [List.foldlM_cons, List.foldlM_cons, h b x List.mem_cons_self]
      exact bind_congr fun b =>
        ih (fun b y hy => h b y (List.mem_cons_of_mem x hy)) b

section Agreeing

variable {x y : Expansion} {t : Symbols} {visited left : ProgramClass → Prop}

theorem structRef_agrees (h : x.Agrees y t visited) (owner : String)
    {c : ProgramClass} (hc : t.Declares c) (hv : visited c) :
    structRef x owner c = structRef y owner c := by
  unfold structRef
  rw [h.cls c hc hv]

variable (hk : t.Keyed) (hvisits : t.Visits visited left)
    (h : x.Agrees y t visited)

include hk hvisits h

theorem namedType_agrees (site : Site) (hs : t.Has site.scope) :
    namedType t x site = namedType t y site := by
  funext row dotted
  unfold namedType
  cases hl : t.lookup site.scope dotted with
  | none => rfl
  | some symbol =>
      have howns := Symbols.owns_lookup hk hs hl
      cases symbol with
      | «alias» scope name value => exact h.aliased site scope name value howns
      | cls c =>
          dsimp only
          cases henum : t.enumType c with
          | some type => rfl
          | none =>
              exact structRef_agrees h site.owner howns
                (hvisits.named c howns henum)
      | function | module | external => rfl

theorem annotation_agrees (site : Site) (hs : t.Has site.scope) (e : Expr) :
    annotationWith t x site e = annotationWith t y site e := by
  unfold annotationWith
  rw [namedType_agrees hk hvisits h site hs]

theorem expandAlias_agrees (site : Site) {scope : Scope}
    {name : String} {value : Expr} (ha : t.DeclaresAlias scope name value) :
    expandAlias t x site scope name value =
    expandAlias t y site scope name value := by
  unfold expandAlias
  rw [annotation_agrees hk hvisits h { site with scope := scope } ha.inTree]

theorem resolveClass_agrees {c : ProgramClass} (hc : t.Declares c)
    (hv : visited c) : resolveClass t x c = resolveClass t y c := by
  have hbases : baseFields x (t.bases c) = baseFields y (t.bases c) :=
    foldlM_congr (fun fields b hb => by
      rw [h.cls b (Symbols.declares_bases hk hc hb)
        (hvisits.bases c hc hv b hb)]) _
  have hfield : ∀ f, ownField t x c f = ownField t y c f := fun f => by
    unfold ownField
    dsimp only
    rw [annotation_agrees hk hvisits h _ hc.inTree]
  unfold resolveClass collectFields
  simp only [hbases, hfield]

/-! ### The stages of an analysis -/

theorem annotation?_agrees (site : Site) (hs : t.Has site.scope) :
    x.annotation? t site = y.annotation? t site := by
  funext e
  cases e with
  | none => rfl
  | some e => exact annotation_agrees hk hvisits h site hs e

theorem describe_agrees {d : ProgramClass} (hd : t.Declares d)
    (owner : StructKey) (f : FunctionDef) :
    x.describe t d owner f = y.describe t d owner f := by
  have hsite :
      ∀ declaration, x.annotation? t ⟨d.scope, owner.package, declaration⟩ =
      y.annotation? t ⟨d.scope, owner.package, declaration⟩ := fun _ =>
    annotation?_agrees hk hvisits h _ hd.inTree
  unfold Expansion.describe
  simp only [hsite]

theorem boundMethods_agrees {c : ProgramClass} (hc : t.Declares c) :
    x.boundMethods t c = y.boundMethods t c := by
  have hdescribed : x.describedMethods t c = y.describedMethods t c := by
    refine foldlM_congr (fun methods d hd => ?_) _
    unfold Expansion.describeAll
    simp only [describe_agrees hk hvisits h (Symbols.declares_chainAt hk hc hd)]
  unfold Expansion.boundMethods
  rw [hdescribed]

theorem addObject_agrees (entry : Source) {scope : Scope} (hs : t.Has scope)
    (calls : BridgeCalls) (scan : SurfaceScan) (e : Expr) :
    x.addObject t entry scope calls scan e =
    y.addObject t entry scope calls scan e := by
  unfold Expansion.addObject
  cases hc : t.classOf scope calls e with
  | none => rfl
  | some c =>
      dsimp only
      rw [boundMethods_agrees hk hvisits h
        (Symbols.declares_classOfWithin hk hs hc)]

theorem scanSurface_agrees (config : Config) (entry : Option Source) :
    x.scanSurface t config entry = y.scanSurface t config entry := by
  unfold Expansion.scanSurface
  dsimp only
  split
  · next file _ _ =>
      split
      · next scope _ hscope =>
          have hs := hk.scope _ _ hscope
          have hadd : x.addObject t file scope = y.addObject t file scope := by
            funext calls scan e
            exact addObject_agrees hk hvisits h file hs calls scan e
          rw [hadd]
      · rfl
  · rfl

omit hk hvisits in
theorem resolveAll_agrees {classes : List ProgramClass}
    (hclasses : ∀ c ∈ classes, t.Declares c ∧ visited c) :
    x.resolveAll classes = y.resolveAll classes := by
  induction classes with
  | nil => rfl
  | cons c classes ih =>
      obtain ⟨hc, hv⟩ := hclasses c List.mem_cons_self
      show (discard (x.cls c) >>= fun _ => x.resolveAll classes) =
        discard (y.cls c) >>= fun _ => y.resolveAll classes
      rw [h.cls c hc hv, ih fun d hd => hclasses d (List.mem_cons_of_mem c hd)]

omit hk hvisits in
theorem resolvePackage_agrees {classes : List ProgramClass}
    (hclasses : ∀ c ∈ classes, t.Declares c ∧ visited c) :
    x.resolvePackage classes = y.resolvePackage classes := by
  funext failures package
  unfold Expansion.resolvePackage
  rw [resolveAll_agrees h fun c hc => hclasses c (List.mem_of_mem_filter hc)]

omit hk hvisits in
/-- What is left waiting is told by the store. -/
theorem finishPackage_agrees (hleft : ∀ c, left c → visited c)
    (failures : Table TypeFault) (package : String) {s : Store}
    (hs : (lasting t left).holds s) : x.finishPackage t failures package s =
    y.finishPackage t failures package s := by
  unfold Expansion.finishPackage
  split
  · rfl
  · rw [run_bind, run_bind]
    have hget : (get : Analyze Store) s = (.ok s, s) := rfl
    rw [hget]
    dsimp only
    rw [resolveAll_agrees h fun c hc =>
      ⟨(waiting_classes hs hc).1, hleft c (waiting_classes hs hc).2.1⟩]

end Agreeing

/-! ### The run -/

namespace Keeps

variable {ε α β γ : Type} {C : Contract} {E : ε → Prop} {P : Store → Prop}
  {step : ExceptT ε (StateM Store) α} {Q : α → Store → Prop} {s : Store}

/-- What comes behind a step has to agree where the step leads, and
nowhere else. -/
theorem bind_congr (hx : Keeps C E P step Q)
    {f g : α → ExceptT ε (StateM Store) β}
    (hfg : ∀ a s, C.holds s → Q a s → f a s = g a s)
    (hs : C.holds s) (hp : P s) : (step >>= f) s = (step >>= g) s := by
  obtain ⟨-, hh, he⟩ := hx s hs hp
  rw [run_bind, run_bind]
  rcases hr : step s with ⟨e | a, s'⟩
  · rfl
  · rw [hr] at hh he
    exact hfg a s' hh he

theorem foldlM_congr {xs : List γ} {f g : β → γ → ExceptT ε (StateM Store) β}
    {J : β → Store → Prop} (hg : ∀ b, ∀ x ∈ xs, Keeps C E (J b) (g b x) J)
    (hfg : ∀ b, ∀ x ∈ xs, ∀ s, C.holds s → f b x s = g b x s) {b : β}
    (hs : C.holds s) (hb : J b s) : xs.foldlM f b s = xs.foldlM g b s := by
  induction xs generalizing b s with
  | nil => rfl
  | cons x xs ih =>
      rw [List.foldlM_cons, List.foldlM_cons, run_bind,
        hfg b x List.mem_cons_self s hs, ← run_bind]
      exact (hg b x List.mem_cons_self).bind_congr (fun b s hs hb =>
        ih (fun b y hy => hg b y (List.mem_cons_of_mem x hy))
          (fun b y hy => hfg b y (List.mem_cons_of_mem x hy)) hs hb) hs hb

end Keeps

section Run

variable {p : Program} {visited left : ProgramClass → Prop} {x : Expansion}
  (hvisits : (Symbols.ofProgram p).Visits visited left)
  (hleft : ∀ c, left c → visited c)
  (hrecords : ∀ c ∈ records (Symbols.ofProgram p), left c)

include hvisits hleft hrecords

/-- An expansion that agrees with the program's own leaves its
analysis as it is. -/
theorem program_agrees
    (h : x.Agrees (Symbols.ofProgram p).expansion (Symbols.ofProgram p) visited)
    (config : Config) {start : Store}
    (hstart : (lasting (Symbols.ofProgram p) left).holds start) :
    x.program config p start = Analyze.program config p start := by
  have hk := Symbols.keyed_ofProgram p
  have hpackage := resolvePackage_agrees h fun c hc =>
    ⟨declares_records hk hc, hleft c (hrecords c hc)⟩
  have hscan := scanSurface_agrees hk hvisits h config p.entryFile
  rw [← program_expansion]
  unfold Expansion.program
  dsimp only
  rw [hpackage, hscan, ← bind_assoc, ← bind_assoc]
  -- only which classes have been left waiting depends on the store
  refine (resolving_surveyed (E := AnyFault) hvisits hleft hrecords (.sorted p)
    ((Symbols.ofProgram p).Binds config p.entryFile) (fun _ _ _ _ => trivial)
    fun _ _ _ _ _ => trivial).bind_congr
      (fun failures s hs hq => ?_) hstart trivial
  refine (((scanSurface_lasts hk hvisits config p.entryFile).analyzing
    (E := AnyFault) (fun _ _ => trivial)).carry stable_surveyed
    |>.pre fun _ _ h => ⟨trivial, h⟩).bind_congr (fun found s hs hq => ?_) hs hq
  obtain ⟨surface, scanned⟩ := found
  have hfinish : (sortNames p.packages.keys).foldlM
      (x.finishPackage (Symbols.ofProgram p))
      (scanned.entries.foldl
        (fun fs (package, f) => chargeLater fs package f) failures) s =
      (sortNames p.packages.keys).foldlM
        ((Symbols.ofProgram p).expansion.finishPackage (Symbols.ofProgram p))
        (scanned.entries.foldl
          (fun fs (package, f) => chargeLater fs package f) failures) s :=
    Keeps.foldlM_congr
      (fun failures package _ => finishPackage_surveyed
        (E := AnyFault) hk hvisits (fun _ _ _ _ _ => trivial) hleft package)
      (fun failures package _ s hs =>
        finishPackage_agrees h hleft failures package hs) hs
      (scanned_surveyed hq.1 hq.2)
  dsimp only
  rw [run_bind, run_bind, hfinish]

end Run

/-! ## Under a watch -/

/-- An expansion with a step that runs before each class. -/
def Expansion.watching (watch : ProgramClass → Resolve Unit) (x : Expansion) :
    Expansion where
  cls c := do
    watch c
    x.cls c
  aliased := x.aliased

namespace Symbols

/-- The levels of a resolution, each with the watch before its classes. -/
def watchedAt (t : Symbols) (watch : ProgramClass → Resolve Unit) :
    Nat → Expansion
  | 0 => .watching watch
      ⟨fun _ => throw .exhausted, fun _ _ _ _ => throw .exhausted⟩
  | levels + 1 =>
    .watching watch
      ⟨resolveClass t (t.watchedAt watch levels),
        expandAlias t (t.watchedAt watch levels)⟩

/-- The expansion of the program with a watch before each class. -/
def watched (t : Symbols) (watch : ProgramClass → Resolve Unit) : Expansion :=
  t.watchedAt watch t.levels

end Symbols

section Watch

variable {visited left : ProgramClass → Prop}
    {watch : ProgramClass → Resolve Unit}

/-- By induction on the levels: none of them comes to a class that
is not visited. -/
theorem watchedAt_agrees {t : Symbols} (hk : t.Keyed)
    (hvisits : t.Visits visited left)
    (hsilent : ∀ c, visited c → watch c = pure ()) (n : Nat) :
    (t.watchedAt watch n).Agrees ⟨classAt t n, aliasAt t n⟩ t visited := by
  induction n with
  | zero =>
      refine ⟨fun c _ hv => ?_, fun _ _ _ _ _ => rfl⟩
      show (watch c >>= fun _ => throw .exhausted) = classAt t 0 c
      rw [hsilent c hv, pure_bind, classAt]
  | succ n ih =>
      rw [levels_succ]
      refine ⟨fun c hc hv => ?_, fun site scope name value ha => ?_⟩
      · show (watch c >>= fun _ => resolveClass t (t.watchedAt watch n) c) =
            resolveClass t _ c
        rw [hsilent c hv, pure_bind]
        exact resolveClass_agrees hk hvisits ih hc hv
      · exact expandAlias_agrees hk hvisits ih site ha

/-- A watch that is silent about the classes that may be visited
is never heard. -/
theorem watched_program {p : Program}
    (hvisits : (Symbols.ofProgram p).Visits visited left)
    (hleft : ∀ c, left c → visited c)
    (hrecords : ∀ c ∈ records (Symbols.ofProgram p), left c)
    (hsilent : ∀ c, visited c → watch c = pure ()) (config : Config)
    {start : Store}
    (hstart : (lasting (Symbols.ofProgram p) left).holds start) :
    ((Symbols.ofProgram p).watched watch).program config p start =
      Analyze.program config p start :=
  program_agrees hvisits hleft hrecords
    (watchedAt_agrees (Symbols.keyed_ofProgram p) hvisits hsilent _)
    config hstart

end Watch

end BridgeBindings
