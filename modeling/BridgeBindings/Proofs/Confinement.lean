import BridgeBindings.Proofs.Survey

/-!
# Failures stay where they belong

A package that fails has been charged, and a charge leads back to an annotation
that cannot be resolved: one that the analysis of the package itself has come
to, or one that is written in it and that any analysis has come to. A package
that has neither is built, however many others fail, in every order.
-/

namespace BridgeBindings

open Syntax Analyze

/-- An annotation that the analysis of a package comes to. -/
def Symbols.Meets (t : Symbols) (bound : ProgramClass → Prop) (package : String)
    (scope : Scope) (e : Expr) : Prop :=
  ∃ item, t.Starts bound package item ∧ t.Reaches item (.expr scope e)

/-- A package is in the result, and not among the failures. -/
def AnalysisResult.Builds (r : AnalysisResult) (package : String) : Prop :=
  r.packages.contains package = true ∧ r.failures.contains package = false

/-- What a package is charged with, it has met or written. -/
theorem Symbols.Charges.met {t : Symbols} {bound : ProgramClass → Prop}
    {package : String} {f : TypeFault} (h : t.Charges bound package f) :
    ∃ looked scope e, t.Meets bound looked scope e ∧ t.Unresolvable scope e ∧
      (package = looked ∨ package = scope.package) := by
  obtain ⟨looked, item, hstarts, ⟨scope, e, hreaches, hbad, hwritten⟩,
      hpackage⟩ := h
  refine ⟨looked, scope, e, ⟨item, hstarts, hreaches⟩, hbad, ?_⟩
  rw [← hwritten]
  exact hpackage

/-- A package in which nothing unresolvable is written that is ever looked at,
and from which nothing unresolvable is reached, is built. -/
theorem faults_confined (p : Program) (config : Config) (package : String)
    (hpackage : package ∈ p.packages.keys)
    (hwritten : ∀ looked scope e,
      (Symbols.ofProgram p).Meets
        ((Symbols.ofProgram p).Binds config p.entryFile) looked scope e →
        scope.package = package → ¬(Symbols.ofProgram p).Unresolvable scope e)
    (hreached : ∀ scope e,
      (Symbols.ofProgram p).Meets
        ((Symbols.ofProgram p).Binds config p.entryFile) package scope e →
        ¬(Symbols.ofProgram p).Unresolvable scope e) :
    (∀ log r, Analysis.answer config p log = .ok r → r.Builds package) ∧
      ∀ (o : Order p) log r, o.answer config log = .ok r →
      r.Builds package := by
  -- whatever is charged with a failure has looked at, or has written, something
  -- unresolvable
  have hevery : ∀ (o : Order p) log r, o.answer config log = .ok r →
      r.Builds package := by
    intro o log r hr
    have hanswer :=
      answer_placed (E := AnyFault) (visits_any (Symbols.ofProgram p))
      (fun _ _ => trivial) (fun _ _ => trivial) o config log
      (fun _ _ => trivial) fun _ _ _ _ _ _ _ => .inr fun _ => trivial
    obtain ⟨failures, hcharged, hplaced⟩ := hanswer.2 r hr
    have hnone : failures.get? package = none := by
      cases hf : failures.get? package with
      | none => rfl
      | some f =>
          obtain ⟨looked, scope, e, hmeets, hbad, rfl | hhome⟩ :=
            (hcharged package f hf).met
          · exact absurd hbad (hreached scope e hmeets)
          · exact absurd hbad (hwritten looked scope e hmeets hhome.symm)
    refine ⟨(hplaced.built package).mpr ⟨hpackage, hnone⟩, ?_⟩
    unfold Table.contains
    rw [hplaced.failed, if_pos hpackage, hnone]
    rfl
  refine ⟨fun log r hr => ?_, hevery⟩
  rw [← Order.sorted_answer] at hr
  exact hevery _ log r hr

namespace Sample

theorem mentions_name {scope : Scope} {id dotted : String}
    (h : Mentions scope (name id) dotted) :
    dotted = id ∧ builtinName scope id = none :=
  mentions_dotted rfl h

theorem malformed_name {scope : Scope} {id : String}
    (h : Malformed scope (name id)) :
    ∃ builtin, builtinName scope id = some builtin ∧
    Undefined scope builtin id := by
  have hasks : ∀ text, Ask.text text ∉ asks scope (name id) := by
    intro text htext
    have hcases : asks scope (name id) =
        if (builtinName scope id).isSome then [] else [.name id] := rfl
    rw [hcases] at htext
    split at htext
    · cases htext
    · cases List.mem_singleton.mp htext
  generalize he : name id = e at h hasks
  cases h with
  | unsupported _ noName => subst he; cases noName
  | undefined _ named left unknown =>
      subst he; cases named; exact ⟨_, left, unknown⟩
  | unreadable asked => exact absurd asked (hasks _)
  | quoted asked => exact absurd asked (hasks _)
  | leftSide => cases he
  | rightSide => cases he
  | unsupportedHead => cases he
  | undefinedHead => cases he
  | argument => cases he
  | torn => cases he

def soundSource : Source := source "main" "main"
  [.cls (cls "A" [] [field "c" (name "C")]),
    .cls (cls "C" [] [field "n" (name "int")])]

def faultySource : Source :=
  source "other" "other" [.cls (cls "B" [] [field "x" (name "Nowhere")])]

/-- A package without faults beside one that fails. -/
def divided : Program := program [soundSource, faultySource]

theorem divided_symbols : Symbols.ofProgram divided =
    ⟨.ofList [("main", .ofSource soundSource),
      ("other", .ofSource faultySource)]⟩ :=
  symbols_apart (f := soundSource) (g := faultySource) (by decide) (by decide)

def soundScope : Scope := .ofSource soundSource

def faultyScope : Scope := .ofSource faultySource

def soundCls : ProgramClass := ⟨soundScope, cls "A" [] [field "c" (name "C")]⟩

def namedCls : ProgramClass := ⟨soundScope, cls "C" [] [field "n" (name "int")]⟩

def faultyCls : ProgramClass :=
  ⟨faultyScope, cls "B" [] [field "x" (name "Nowhere")]⟩

theorem divided_declares {c : ProgramClass}
    (h : (Symbols.ofProgram divided).Declares c) :
    c = soundCls ∨ c = namedCls ∨ c = faultyCls := by
  obtain ⟨scope, decl⟩ := c
  have hscope : (scope.module, scope) ∈
      [("main", soundScope), ("other", faultyScope)] := by
    have hin := h.inTree
    rw [divided_symbols] at hin
    exact Table.get?_ofList_mem hin
  have hdecl : decl ∈ scope.classes.values := Table.mem_values_of_get? h.decl
  rcases List.mem_cons.mp hscope with he | hscope
  · obtain rfl : scope = soundScope := congrArg Prod.snd he
    have hdecl' : decl ∈ [soundCls.decl, namedCls.decl] := hdecl
    rcases List.mem_cons.mp hdecl' with rfl | hdecl'
    · exact .inl rfl
    · rw [List.mem_singleton.mp hdecl']
      exact .inr (.inl rfl)
  · obtain rfl : scope = faultyScope :=
      congrArg Prod.snd (List.mem_singleton.mp hscope)
    have hdecl' : decl ∈ [faultyCls.decl] := hdecl
    rw [List.mem_singleton.mp hdecl']
    exact .inr (.inr rfl)

/-- What the sound package comes to. -/
def SoundItem : Item → Prop
  | .cls c => c = soundCls ∨ c = namedCls
  | .expr scope e => scope = soundScope ∧ (e = name "C" ∨ e = name "int")

/-- What the other package comes to. -/
def FaultyItem : Item → Prop
  | .cls c => c = faultyCls
  | .expr scope e => scope = faultyScope ∧ e = name "Nowhere"

theorem divided_lookup :
    (Symbols.ofProgram divided).lookup soundScope "C" =
    some (.cls namedCls) := by
  rw [divided_symbols]
  rfl

theorem soundItem_lead {a b : Item} (h : (Symbols.ofProgram divided).Leads a b)
    (ha : SoundItem a) : SoundItem b := by
  cases h with
  | base isBase =>
      rcases ha with rfl | rfl
      · cases isBase
      · cases isBase
  | field declared =>
      rcases ha with rfl | rfl
      · cases List.mem_singleton.mp declared
        exact ⟨rfl, .inl rfl⟩
      · cases List.mem_singleton.mp declared
        exact ⟨rfl, .inr rfl⟩
  | named mentioned stands =>
      obtain ⟨rfl, rfl | rfl⟩ := ha
      · rw [(mentions_name mentioned).1, divided_lookup] at stands
        cases stands
        exact .inr rfl
      · exact absurd (mentions_name mentioned).2 (by decide +kernel)
  | aliased mentioned stands =>
      obtain ⟨rfl, rfl | rfl⟩ := ha
      · rw [(mentions_name mentioned).1, divided_lookup] at stands
        cases stands
      · exact absurd (mentions_name mentioned).2 (by decide +kernel)

theorem faultyItem_lead {a b : Item} (h : (Symbols.ofProgram divided).Leads a b)
    (ha : FaultyItem a) : FaultyItem b := by
  cases h with
  | base isBase =>
      cases (show _ = faultyCls from ha)
      cases isBase
  | field declared =>
      cases (show _ = faultyCls from ha)
      cases List.mem_singleton.mp declared
      exact ⟨rfl, rfl⟩
  | named mentioned =>
      obtain ⟨rfl, rfl⟩ := ha
      exact absurd (mentions_name mentioned).2 (by decide +kernel)
  | aliased mentioned =>
      obtain ⟨rfl, rfl⟩ := ha
      exact absurd (mentions_name mentioned).2 (by decide +kernel)

theorem soundItem_resolvable {scope : Scope} {e : Expr}
    (h : SoundItem (.expr scope e)) :
    ¬(Symbols.ofProgram divided).Unresolvable scope e := by
  obtain ⟨rfl, rfl | rfl⟩ := h
  · rintro (hbad | ⟨dotted, hm, hnone⟩)
    · obtain ⟨_, hleft, -⟩ := malformed_name hbad
      exact absurd hleft
        (by rw [show builtinName soundScope "C" = none by
          decide +kernel]; exact nofun)
    · rw [(mentions_name hm).1, divided_lookup] at hnone
      cases hnone
  · rintro (hbad | ⟨dotted, hm, -⟩)
    · obtain ⟨builtin, hleft, hunknown⟩ := malformed_name hbad
      rw [show builtinName soundScope "int" = some "int" by
        decide +kernel] at hleft
      cases hleft
      exact absurd hunknown.1 (by decide)
    · exact absurd (mentions_name hm).2 (by decide +kernel)

theorem reached_of_lead {kept : Item → Prop}
    (hlead : ∀ a b, (Symbols.ofProgram divided).Leads a b → kept a → kept b)
    {a b : Item} (h : (Symbols.ofProgram divided).Reaches a b) (ha : kept a) :
    kept b := by
  induction h with
  | refl => exact ha
  | tail _ hl ih => exact hlead _ _ hl ih

/-- No object is bound, so each package starts with its classes only. -/
theorem divided_starts {looked : String} {item : Item}
    (h : (Symbols.ofProgram divided).Starts
      ((Symbols.ofProgram divided).Binds config divided.entryFile)
      looked item) :
    looked = "main" ∧ SoundItem item ∨ looked = "other" ∧ FaultyItem item := by
  cases h with
  | cls declared =>
      rcases divided_declares declared with rfl | rfl | rfl
      · exact .inl ⟨rfl, .inl rfl⟩
      · exact .inl ⟨rfl, .inr rfl⟩
      · exact .inr ⟨rfl, rfl⟩
  | signature isBound =>
      obtain ⟨file, scope, hfile, -, e, he, -⟩ := isBound
      have hentry : divided.entryFile = some soundSource := rfl
      rw [hentry] at hfile he
      cases hfile
      have hnone :
          (BridgeCalls.collect (bridgeOf (Symbols.ofProgram divided) config
          (some soundSource)) soundSource.tree).bound = [] :=
        List.isEmpty_iff.mp (by decide +kernel)
      rw [hnone] at he
      cases he

theorem divided_answer : ∃ r, Analysis.answer config divided [] = .ok r ∧
    r.failures.contains "other" = true := by
  have hscopes : (Symbols.ofProgram divided).sortedScopes =
      [soundScope, faultyScope] := by
    rw [divided_symbols]
    unfold Symbols.sortedScopes
    rw [List.mergeSort_of_pairwise (by decide)]
    rfl
  have hnames : sortNames divided.packages.keys = ["main", "other"] :=
    List.mergeSort_of_pairwise (by decide)
  have hcheck : (Analysis.answer config divided []).toOption.any
      (·.failures.contains "other") = true := by
    unfold Analysis.answer Analyze.program classify payloadSeeds Analyze.records
      Analyze.classes Store.ofPackages
    simp only [hscopes, hnames, StructKey.sortedSet_eq]
    simp only [divided_symbols]
    decide +kernel
  obtain ⟨r, hr, hfails⟩ := (Option.any_eq_true _ _).mp hcheck
  exact ⟨r, ok_of_toOption hr, hfails⟩

/-- The other package fails, this one is built. -/
theorem divided_confined : "main" ∈ divided.packages.keys ∧
    (∀ looked scope e, (Symbols.ofProgram divided).Meets
      ((Symbols.ofProgram divided).Binds config divided.entryFile)
      looked scope e →
        scope.package = "main" →
        ¬(Symbols.ofProgram divided).Unresolvable scope e) ∧
    (∀ scope e, (Symbols.ofProgram divided).Meets
      ((Symbols.ofProgram divided).Binds config divided.entryFile)
      "main" scope e →
        ¬(Symbols.ofProgram divided).Unresolvable scope e) ∧
    ∃ r, Analysis.answer config divided [] = .ok r ∧
    r.failures.contains "other" = true ∧
      r.Builds "main" := by
  have hmain : "main" ∈ divided.packages.keys := by decide
  have hwritten : ∀ looked scope e, (Symbols.ofProgram divided).Meets
      ((Symbols.ofProgram divided).Binds config divided.entryFile)
      looked scope e →
        scope.package = "main" →
        ¬(Symbols.ofProgram divided).Unresolvable scope e := by
    rintro looked scope e ⟨item, hstarts, hreaches⟩ hhome
    rcases divided_starts hstarts with ⟨-, hitem⟩ | ⟨-, hitem⟩
    · exact soundItem_resolvable
        (reached_of_lead (fun _ _ => soundItem_lead) hreaches hitem)
    · obtain ⟨rfl, -⟩ : FaultyItem (.expr scope e) :=
        reached_of_lead (fun _ _ => faultyItem_lead) hreaches hitem
      exact absurd hhome (by decide)
  have hreached : ∀ scope e, (Symbols.ofProgram divided).Meets
      ((Symbols.ofProgram divided).Binds config divided.entryFile)
      "main" scope e →
        ¬(Symbols.ofProgram divided).Unresolvable scope e := by
    rintro scope e ⟨item, hstarts, hreaches⟩
    rcases divided_starts hstarts with ⟨-, hitem⟩ | ⟨hother, -⟩
    · exact soundItem_resolvable
        (reached_of_lead (fun _ _ => soundItem_lead) hreaches hitem)
    · exact absurd hother (by decide)
  obtain ⟨r, hr, hfails⟩ := divided_answer
  exact ⟨hmain, hwritten, hreached, r, hr, hfails,
    (faults_confined divided config "main" hmain hwritten hreached).1 [] r hr⟩

end Sample

end BridgeBindings
