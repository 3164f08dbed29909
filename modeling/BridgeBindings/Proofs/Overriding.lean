import BridgeBindings.Proofs.Exposure
import BridgeBindings.Proofs.Linearization
import BridgeBindings.Proofs.Samples
import BridgeBindings.Proofs.Turns

/-!
# Which definition of a method is exposed

Of the definitions of a method that a class has, the one that is described last
stands under its name: that of the last class in the chain, which is the first
of the chain read backwards. At run time it is that of the first class in the
order in which methods are looked up. A class that declares the method and
inherits from all others that do comes first in both, so the two agree on every
method that has such a class.
-/

namespace BridgeBindings

open Syntax

/-- The public method of a name that a class declares: of several the last. -/
def Syntax.ClassDef.method? (c : ClassDef) (n : String) : Option FunctionDef :=
  c.publicMethods.reverse.find? (·.name = n)

/-- The first of some classes that declares a public method of a name,
with the method. -/
def provider? (classes : List ProgramClass) (n : String) :
    Option (ProgramClass × FunctionDef) :=
  classes.findSome? fun d => (d.decl.method? n).map fun f => (d, f)

section Providers

variable {classes : List ProgramClass} {n : String} {d : ProgramClass}
    {f : FunctionDef}

theorem method?_isSome_iff {c : ClassDef} :
    (c.method? n).isSome ↔ ∃ f ∈ c.publicMethods, f.name = n := by
  simp [ClassDef.method?]

theorem provider?_eq_some : provider? classes n = some (d, f) ↔ ∃ before after,
    classes = before ++ d :: after ∧ d.decl.method? n = some f ∧
      ∀ e ∈ before, e.decl.method? n = none := by
  unfold provider?
  rw [List.findSome?_eq_some_iff]
  constructor
  · rintro ⟨before, d', after, hsplit, hfound, hnone⟩
    obtain ⟨f', hf, he⟩ := Option.map_eq_some_iff.mp hfound
    cases he
    exact ⟨before, after, hsplit, hf, fun e he =>
      Option.map_eq_none_iff.mp (hnone e he)⟩
  · rintro ⟨before, after, hsplit, hf, hnone⟩
    exact ⟨before, d, after, hsplit, by
      rw [hf]; rfl, fun e he => by rw [hnone e he]; rfl⟩

theorem provider?_isSome_iff :
    (provider? classes n).isSome ↔
    ∃ d ∈ classes, (d.decl.method? n).isSome := by
  simp [provider?]

/-- Of all methods of some classes, one class after the other, the last one of a
name is that of the first class from behind. -/
theorem find?_declared (classes : List ProgramClass) (n : String) :
    (classes.flatMap fun d =>
      d.decl.publicMethods.map fun f => (d, f)).reverse.find? (·.2.name = n) =
      provider? classes.reverse n := by
  rw [List.reverse_flatMap, List.find?_flatMap]
  refine congrArg (List.findSome? · classes.reverse) (funext fun d => ?_)
  rw [Function.comp_apply, ← List.map_reverse, List.find?_map]
  rfl

/-- A class that declares the method and inherits from all others that do is the
one in every order that puts classes before what they inherit from. -/
theorem Symbols.Extends.provider? {t : Symbols} {c : ProgramClass}
    {order order' : List ProgramClass} (h : t.Extends c order)
    (h' : t.Extends c order') (hfound : provider? order n = some (d, f))
    (hall : ∀ e, t.Inherits c e → (e.decl.method? n).isSome → t.Inherits d e) :
    BridgeBindings.provider? order' n = some (d, f) := by
  obtain ⟨before, after, hsplit, hf, -⟩ := provider?_eq_some.mp hfound
  have hd : t.Inherits c d := (h.members d).mp (by rw [hsplit]; simp)
  have hsome : (BridgeBindings.provider? order' n).isSome :=
    provider?_isSome_iff.mpr ⟨d, (h'.members d).mpr hd, by rw [hf]; rfl⟩
  obtain ⟨⟨e, g⟩, hfound'⟩ := Option.isSome_iff_exists.mp hsome
  obtain ⟨before', after', hsplit', hg, hnone⟩ := provider?_eq_some.mp hfound'
  have he : t.Inherits c e := (h'.members e).mp (by rw [hsplit']; simp)
  have hsame : e = d := by
    by_contra hne
    have hpair : [d, e].Sublist order' :=
      h'.before d e hd (hall e he (by rw [hg]; rfl)) fun hde => hne hde.symm
    have hmem : d ∈ before' ++ e :: after' := hsplit' ▸ (h'.members d).mpr hd
    rcases List.mem_append.mp hmem with hmem | hmem
    · rw [hnone d hmem] at hf
      cases hf
    · rcases List.mem_cons.mp hmem with rfl | hmem
      · exact hne rfl
      · have hback : [e, d].Sublist order' := by
          rw [hsplit']
          exact ((List.singleton_sublist.mpr hmem).cons_cons e).trans
            (List.sublist_append_right _ _)
        exact pair_asymm h'.once hpair hback
  rw [hsame, hf] at hg
  cases hg
  rwa [hsame] at hfound'

end Providers

/-! ## Descriptions -/

/-- A method that is what describing a definition for a class comes to,
in some store. -/
def Symbols.Describing (t : Symbols) (declarer : ProgramClass)
    (owner : StructKey) (f : FunctionDef) (m : BoundMethod) :
    Prop := ∃ s s', t.describe declarer owner f s = (.ok m, s')

theorem map_name_of_forall₂ {ps : List Param} {qs : List MethodParam}
    (h : List.Forall₂ (fun p q => q.name = p.name) ps qs) :
    qs.map (·.name) = ps.map (·.name) := by
  induction h with
  | nil => rfl
  | cons hname _ ih => rw [List.map_cons, List.map_cons, hname, ih]

/-- What a description takes from its definition as it is. -/
structure Copies (declarer : ProgramClass) (f : FunctionDef) (m : BoundMethod) :
    Prop where
  name : m.name = f.name
  params : m.params.map (·.name) = (Symbols.callerParams f).map (·.name)
  comments : m.comments = declarer.scope.source.notes.functionDoc f
  isAsync : m.isAsync = f.isAsync

theorem describe_copies (t : Symbols) (declarer : ProgramClass)
    (owner : StructKey) (f : FunctionDef) :
    Keeps .free AnyStop Always (t.describe declarer owner f) fun m _ =>
      Copies declarer f m := by
  unfold Symbols.describe
  extract_lets site
  refine (Keeps.mapM (P := Always)
    (R := fun (p : Param) (q : MethodParam) _ => q.name = p.name)
    (fun _ _ _ _ _ h => h) fun p _ => ?_).bind fun params => ?_
  · exact (Keeps.anything _).bind fun _ =>
      Keeps.pure fun _ _ _ => ⟨trivial, rfl⟩
  extract_lets build
  refine .ite (fun _ => ?_) fun _ => ?_
  · rw [pure_bind]
    exact Keeps.pure fun _ _ h => ⟨rfl, map_name_of_forall₂ h.2, rfl, rfl⟩
  · have hstable : Contract.free.Stable fun _ : Store =>
        List.Forall₂ (fun (p : Param) (q : MethodParam) => q.name = p.name)
          (Symbols.callerParams f) params :=
      fun _ h => h
    refine (((Keeps.anything _).carry hstable).pre fun _ _ h =>
      ⟨trivial, h.2⟩).bind fun result => ?_
    exact Keeps.pure fun _ _ h => ⟨rfl, map_name_of_forall₂ h.2, rfl, rfl⟩

theorem Symbols.Describing.copies {t : Symbols} {declarer : ProgramClass}
    {owner : StructKey} {f : FunctionDef} {m : BoundMethod}
    (h : t.Describing declarer owner f m) : Copies declarer f m := by
  obtain ⟨s, s', hrun⟩ := h
  have hends := (describe_copies t declarer owner f s trivial trivial).2.2
  rw [hrun] at hends
  exact hends

/-- Each method of a table is described from the last of these
definitions of its name. -/
def LastDescribed (t : Symbols) (c : ProgramClass)
    (declared : List (ProgramClass × FunctionDef))
    (described : Table BoundMethod) : Prop :=
  ∀ n m, described.get? n = some m → ∃ d f,
    declared.reverse.find? (·.2.name = n) = some (d, f) ∧
      t.Describing d c.key f m

theorem LastDescribed.insert {t : Symbols} {c : ProgramClass}
    {declared : List (ProgramClass × FunctionDef)}
    {described : Table BoundMethod} (h : LastDescribed t c declared described)
    {x : ProgramClass × FunctionDef} {m : BoundMethod}
    (hm : t.Describing x.1 c.key x.2 m) :
    LastDescribed t c (declared ++ [x]) (described.insert x.2.name m) := by
  intro n m' hm'
  have hlast : (declared ++ [x]).reverse.find? (·.2.name = n) =
      if x.2.name = n then some x
        else declared.reverse.find? (·.2.name = n) := by
    rw [List.reverse_append, List.reverse_singleton, List.singleton_append,
      List.find?_cons]
    by_cases hname : x.2.name = n <;> simp [hname]
  rw [hlast]
  rw [Table.get?_insert] at hm'
  by_cases hname : n = x.2.name
  · rw [if_pos hname] at hm'
    cases hm'
    exact ⟨x.1, x.2, if_pos hname.symm, hm⟩
  · rw [if_neg hname] at hm'
    rw [if_neg fun h => hname h.symm]
    exact h n m' hm'

/-- Each method that has been described is described from the last
definition of its name. -/
theorem describedMethods_last (t : Symbols) (c : ProgramClass) :
    Keeps .free AnyStop Always (t.describedMethods c) fun described _ =>
      ∀ n m, described.get? n = some m → ∃ d f,
        provider? (t.classChain c).reverse n = some (d, f) ∧
        t.Describing d c.key f m := by
  have hstep :
      ∀ (done : List (ProgramClass × FunctionDef)) (described :
        Table BoundMethod)
      (d : ProgramClass) (f : FunctionDef),
      Keeps .free AnyStop (fun _ => LastDescribed t c done described)
        (t.describe d c.key f) fun m _ =>
          LastDescribed t c (done ++ [(d, f)]) (described.insert f.name m) := by
    intro done described d f s _ hbefore
    refine ⟨trivial, trivial, ?_⟩
    rcases hr : t.describe d c.key f s with ⟨e | m, s'⟩
    · exact trivial
    · exact hbefore.insert (x := (d, f)) ⟨s, s', hr⟩
  have hloop : Keeps .free AnyStop (fun _ => LastDescribed t c [] .empty)
      (t.describedMethods c) fun described _ =>
        LastDescribed t c (t.methodsAlong c) described :=
    describedMethods_keeps
      (J := fun done described _ => LastDescribed t c done described)
      (fun _ _ _ _ => trivial) fun done described d _ f _ =>
        hstep done described d f
  refine (hloop.pre fun _ _ _ n m h => by cases h).post
    fun described _ _ hends n m hm => ?_
  obtain ⟨d, f, hfound, hdescribing⟩ := hends n m hm
  unfold Symbols.methodsAlong at hfound
  rw [find?_declared (t.classChain c)] at hfound
  exact ⟨d, f, hfound, hdescribing⟩

/-- What a class that does not fail exposes under a name. -/
theorem Exposure.describing {t : Symbols} {x : Exposure}
    {methods : List BoundMethod} (h : x.outcome t = .ok methods)
    {m : BoundMethod} (hm : m ∈ methods) : ∃ d f,
      provider? (t.classChain x.cls).reverse m.name = some (d, f) ∧
      t.Describing d x.cls.key f m := by
  obtain ⟨-, -, hdescribes⟩ :=
    describedMethods_describes t x.cls x.before trivial trivial
  obtain ⟨-, -, hlast⟩ := describedMethods_last t x.cls x.before trivial trivial
  unfold outcome at h
  rw [boundMethods_eq, run_bind] at h
  rcases hr : t.describedMethods x.cls x.before with ⟨e | described, s⟩ <;>
    rw [hr] at h hdescribes hlast
  · cases h
  · dsimp only at h
    rw [addDescribed_run] at h
    cases h
    obtain ⟨⟨n, m'⟩, he, rfl⟩ := List.mem_map.mp hm
    have hentry : (n, m') ∈ described.entries := List.mem_mergeSort.mp he
    have hname : m'.name = n := (hdescribes.owned _ hentry).1
    have hget : described.get? m'.name = some m' := by
      rw [hname]
      exact Table.get?_of_mem hdescribes.once hentry
    exact hlast m'.name m' hget

/-- The methods of a bound class against the order in which its methods are
looked up at run time. Each describes the first definition of its name in the
chain read backwards. That is the definition that is looked up if the class that
declares it inherits from all others that declare one; and the chain read
backwards is the order itself exactly if the hierarchy is a line. -/
theorem exposed_methods_resolve (p : Program)
    (hspelled : (Symbols.ofProgram p).Spelled) {x : Exposure}
    (hc : (Symbols.ofProgram p).Declares x.cls) {order : List ProgramClass}
    (horder : (Symbols.ofProgram p).Linearizes x.cls order)
    {methods : List BoundMethod}
    (hok : x.outcome (Symbols.ofProgram p) = .ok methods) :
    (∀ n, n ∈ methods.map (·.name) ↔ (provider? order n).isSome) ∧
    (∀ m ∈ methods, ∃ d f, provider? order m.name = some (d, f) ∧
      ((∀ e, (Symbols.ofProgram p).Inherits x.cls e →
        (e.decl.method? m.name).isSome → (Symbols.ofProgram p).Inherits d e) →
          (Symbols.ofProgram p).Describing d x.cls.key f m)) ∧
    (∀ m ∈ methods, ∃ d f,
      provider? ((Symbols.ofProgram p).classChain x.cls).reverse m.name =
      some (d, f) ∧
        (Symbols.ofProgram p).Describing d x.cls.key f m) ∧
    (((Symbols.ofProgram p).classChain x.cls).reverse = order ↔
      (Symbols.ofProgram p).Line x.cls) := by
  have hk := Symbols.keyed_ofProgram p
  have hextends := horder.extends
  have hnames : ∀ n, n ∈ methods.map (·.name) ↔ (provider? order n).isSome := by
    intro n
    rw [(x.exposes hk hspelled hc hok).names, provider?_isSome_iff]
    simp only [method?_isSome_iff, hextends.members]
  refine ⟨hnames, fun m hm => ?_, fun m hm => Exposure.describing hok hm,
    horder.chain_eq_iff hk hspelled hc⟩
  obtain ⟨⟨d, f⟩, hlooked⟩ := Option.isSome_iff_exists.mp
    ((hnames m.name).mp (List.mem_map_of_mem hm))
  refine ⟨d, f, hlooked, fun hall => ?_⟩
  obtain ⟨d', f', hfound, hdescribing⟩ := Exposure.describing hok hm
  -- both lists have the same classes, each before what it inherits from, so a
  -- class that inherits from all others that declare the name is first in both
  have hchain := Symbols.classChain_extends hk hspelled hc horder.grounded
  rw [hextends.provider? hchain hlooked hall] at hfound
  cases hfound
  exact hdescribing

namespace Sample

/-- A class that opens something with these parameters. -/
def opener (id : String) (bases params : List String) : ClassDef :=
  cls id bases
    [.function ⟨start, false, "open",
      ⟨[], ("self" :: params).map (⟨·, none, none⟩), none, [], none⟩, [], [],
    some (.constant start .none)⟩]

def hierarchy (classes : List ClassDef) : Program :=
  program [source "main" "main" (classes.map .cls)]

def within (classes : List ClassDef) (decl : ClassDef) : ProgramClass :=
  ⟨.ofSource (source "main" "main" (classes.map .cls)), decl⟩

theorem declares_hierarchy {classes : List ClassDef} {c : ProgramClass}
    (h : (Symbols.ofProgram (hierarchy classes)).Declares c) :
    ∃ decl ∈ classes, c = within classes decl := by
  obtain ⟨scope, decl⟩ := c
  obtain rfl : scope = _ := has_source_only h.inTree
  obtain ⟨stmt, hstmt, hdecl⟩ :=
    List.mem_filterMap.mp (Table.get?_ofList_mem h.decl)
  obtain ⟨d, hd, rfl⟩ := List.mem_map.mp hstmt
  obtain rfl : d = decl := congrArg Prod.snd (Option.some.inj hdecl)
  exact ⟨d, hd, rfl⟩

theorem hierarchy_spelled {classes : List ClassDef}
    (hcls : ∀ c ∈ classes, '.' ∉ c.name.toList)
    (hmethods : ∀ c ∈ classes, ∀ f ∈ c.publicMethods, '.' ∉ f.name.toList) :
    (Symbols.ofProgram (hierarchy classes)).Spelled where
  cls c hc := by
    obtain ⟨decl, hdecl, rfl⟩ := declares_hierarchy hc
    exact hcls decl hdecl
  method c hc f hf := by
    obtain ⟨decl, hdecl, rfl⟩ := declares_hierarchy hc
    exact hmethods decl hdecl f hf

theorem within_ne {classes : List ClassDef} {d e : ClassDef}
    (h : d.name ≠ e.name) : within classes d ≠ within classes e :=
  fun he => h (congrArg (·.decl.name) he)

section Linearized

variable {t : Symbols} {c b b' a : ProgramClass}

theorem linearizes_single (h : t.bases c = []) : t.Linearizes c [c] := by
  refine @Symbols.Linearizes.of t c (fun _ => []) [] (fun b hb => ?_) (.done ?_)
  · rw [h] at hb
    cases hb
  · rw [h]
    exact fun l hl => List.mem_singleton.mp hl

theorem linearizes_pair (hc : t.bases c = [b]) (hb : t.bases b = []) :
    t.Linearizes c [c, b] := by
  refine @Symbols.Linearizes.of t c (fun b => [b]) [b] (fun b' hb' => ?_) ?_
  · rw [hc] at hb'
    rw [List.mem_singleton.mp hb']
    exact linearizes_single hb
  · rw [hc]
    have hnext : Next [[b], [b]] b :=
      ⟨by simp [Free], [], [], [[b]], rfl, fun l hl =>
        absurd hl List.not_mem_nil⟩
    exact .take hnext (.cons (.head []) (.cons (.head []) .nil))
      (.done (by simp))

/-- Two bases without bases of their own, in the order in which
they are written. -/
theorem linearizes_two (hc : t.bases c = [b, b']) (hb : t.bases b = [])
    (hb' : t.bases b' = []) (hne : b ≠ b') : t.Linearizes c [c, b, b'] := by
  refine @Symbols.Linearizes.of t c (fun b => [b]) [b, b'] (fun d hd => ?_) ?_
  · rw [hc] at hd
    rcases List.mem_cons.mp hd with rfl | hd
    · exact linearizes_single hb
    · rw [List.mem_singleton.mp hd]
      exact linearizes_single hb'
  · rw [hc]
    have hfirst : Next [[b], [b'], [b, b']] b :=
      ⟨by simp [Free, hne], [], [], _, rfl, fun l hl =>
        absurd hl List.not_mem_nil⟩
    have hsecond : Next [[], [b'], [b']] b' :=
      ⟨by simp [Free], [[]], [], _, rfl, by simp⟩
    have hother : [b'].head? ≠ some b := by simp [hne.symm]
    exact .take hfirst
      (.cons (.head _) (.cons (.other hother) (.cons (.head _) .nil)))
      (.take hsecond
        (.cons (.other (by simp)) (.cons (.head _) (.cons (.head _) .nil)))
        (.done (by simp)))

/-- Two bases with one base in common, which comes behind both. -/
theorem linearizes_diamond (hc : t.bases c = [b, b']) (hb : t.bases b = [a])
    (hb' : t.bases b' = [a]) (ha : t.bases a = []) (hne : b ≠ b') (hba : b ≠ a)
    (hba' : b' ≠ a) : t.Linearizes c [c, b, b', a] := by
  refine @Symbols.Linearizes.of t c (fun b => [b, a])
    [b, b', a] (fun d hd => ?_) ?_
  · rw [hc] at hd
    rcases List.mem_cons.mp hd with rfl | hd
    · exact linearizes_pair hb ha
    · rw [List.mem_singleton.mp hd]
      exact linearizes_pair hb' ha
  · rw [hc]
    have hfirst : Next [[b, a], [b', a], [b, b']] b :=
      ⟨by simp [Free, hne, hba], [], [a], _, rfl, fun l hl =>
        absurd hl List.not_mem_nil⟩
    -- the common base is the first head now, but it stands behind the second
    -- base
    have hsecond : Next [[a], [b', a], [b']] b' :=
      ⟨by simp [Free, hba'], [[a]], [a], _, rfl, by simp [Free]⟩
    have hthird : Next [[a], [a], []] a :=
      ⟨by simp [Free], [], [], _, rfl, fun l hl => absurd hl List.not_mem_nil⟩
    exact .take hfirst
      (.cons (.head _)
        (.cons (.other (by simp [hne.symm])) (.cons (.head _) .nil)))
      (.take hsecond
        (.cons (.other (by simp [hba'.symm]))
          (.cons (.head _) (.cons (.head _) .nil)))
        (.take hthird
          (.cons (.head _) (.cons (.head _) (.cons (.other (by simp)) .nil)))
          (.done (by simp))))

end Linearized

def readerCls : ClassDef := opener "Reader" [] ["path"]

def writerCls : ClassDef := opener "Writer" [] ["path", "mode"]

/-- Two bases declare the method, and none of them inherits from the other. -/
def fileClasses : List ClassDef :=
  [readerCls, writerCls, cls "File" ["Reader", "Writer"] [.other]]

def file : ProgramClass :=
  within fileClasses (cls "File" ["Reader", "Writer"] [.other])

theorem file_bases :
    (Symbols.ofProgram (hierarchy fileClasses)).bases file =
      [within fileClasses readerCls, within fileClasses writerCls] ∧
    (Symbols.ofProgram (hierarchy fileClasses)).bases
      (within fileClasses readerCls) = [] ∧
    (Symbols.ofProgram (hierarchy fileClasses)).bases
      (within fileClasses writerCls) = [] := by
  rw [hierarchy, symbols_source]
  exact ⟨rfl, rfl, rfl⟩

theorem file_linearizes :
    (Symbols.ofProgram (hierarchy fileClasses)).Linearizes file
    [file, within fileClasses readerCls, within fileClasses writerCls] := by
  obtain ⟨hfile, hreader, hwriter⟩ := file_bases
  exact linearizes_two hfile hreader hwriter (within_ne (by decide))

theorem file_exposes (s : Store) :
    ∃ m, (m.name = "open" ∧ m.params.map (·.name) = ["path", "mode"]) ∧
    Exposure.outcome (Symbols.ofProgram (hierarchy fileClasses))
      ⟨file, s⟩ = .ok [m] := by
  rw [hierarchy, symbols_source]
  exact ⟨_, ⟨rfl, rfl⟩, congrArg Prod.fst
    (boundMethods_single (n := "open") rfl)⟩

/-- The method is looked up in the first base, and what is exposed is that
of the second. -/
theorem file_misses : (Symbols.ofProgram (hierarchy fileClasses)).Spelled ∧
    (Symbols.ofProgram (hierarchy fileClasses)).Linearizes file
      [file, within fileClasses readerCls, within fileClasses writerCls] ∧
    ∃ f m, provider?
      [file, within fileClasses readerCls,
        within fileClasses writerCls] m.name =
        some (within fileClasses readerCls, f) ∧
      Exposure.outcome (Symbols.ofProgram (hierarchy fileClasses))
        ⟨file, .ofPackages ["main"] "main"⟩ = .ok [m] ∧
      ¬(Symbols.ofProgram (hierarchy fileClasses)).Describing
        (within fileClasses readerCls) file.key f m := by
  obtain ⟨m, ⟨hname, hparams⟩, hok⟩ :=
    file_exposes (.ofPackages ["main"] "main")
  refine ⟨hierarchy_spelled (by decide) (by decide), file_linearizes, _, m,
    by rw [hname]; rfl, hok, fun hdescribing => ?_⟩
  have hcopies := hdescribing.copies.params
  rw [hparams] at hcopies
  exact absurd hcopies (by decide)

def diamondClasses : List ClassDef :=
  [opener "Base" [] ["path"], opener "Left" ["Base"] ["path", "mode"],
    cls "Right" ["Base"] [.other], cls "Both" ["Left", "Right"] [.other]]

def diamondBase : ProgramClass :=
  within diamondClasses (opener "Base" [] ["path"])

def diamondLeft : ProgramClass :=
  within diamondClasses (opener "Left" ["Base"] ["path", "mode"])

def diamondRight : ProgramClass :=
  within diamondClasses (cls "Right" ["Base"] [.other])

def diamond : ProgramClass :=
  within diamondClasses (cls "Both" ["Left", "Right"] [.other])

theorem diamond_bases :
    (Symbols.ofProgram (hierarchy diamondClasses)).bases diamond =
    [diamondLeft, diamondRight] ∧
    (Symbols.ofProgram (hierarchy diamondClasses)).bases diamondLeft =
    [diamondBase] ∧ (Symbols.ofProgram (hierarchy diamondClasses)).bases
      diamondRight = [diamondBase] ∧
    (Symbols.ofProgram (hierarchy diamondClasses)).bases diamondBase = [] := by
  rw [hierarchy, symbols_source]
  exact ⟨rfl, rfl, rfl, rfl⟩

theorem diamond_linearizes :
    (Symbols.ofProgram (hierarchy diamondClasses)).Linearizes diamond
    [diamond, diamondLeft, diamondRight, diamondBase] := by
  obtain ⟨hdiamond, hleft, hright, hbase⟩ := diamond_bases
  exact linearizes_diamond hdiamond hleft hright hbase (within_ne (by decide))
    (within_ne (by decide)) (within_ne (by decide))

theorem diamond_exposes (s : Store) : ∃ m, m.name = "open" ∧
    Exposure.outcome (Symbols.ofProgram (hierarchy diamondClasses))
      ⟨diamond, s⟩ = .ok [m] := by
  rw [hierarchy, symbols_source]
  exact ⟨_, rfl, congrArg Prod.fst (boundMethods_single (n := "open") rfl)⟩

/-- The one base overrides the method of the base that both have, and is
what is exposed. -/
theorem diamond_resolves :
    (Symbols.ofProgram (hierarchy diamondClasses)).Spelled ∧
    (Symbols.ofProgram (hierarchy diamondClasses)).Declares diamond ∧
    (Symbols.ofProgram (hierarchy diamondClasses)).Linearizes diamond
      [diamond, diamondLeft, diamondRight, diamondBase] ∧
    ∃ f m, Exposure.outcome (Symbols.ofProgram (hierarchy diamondClasses))
        ⟨diamond, .ofPackages ["main"] "main"⟩ = .ok [m] ∧
      (Symbols.ofProgram (hierarchy diamondClasses)).Describing diamondLeft
        diamond.key f m := by
  have hspelled : (Symbols.ofProgram (hierarchy diamondClasses)).Spelled :=
    hierarchy_spelled (by decide) (by decide)
  have hdeclared :
      (Symbols.ofProgram (hierarchy diamondClasses)).Declares diamond :=
    ⟨has_source _, rfl⟩
  obtain ⟨m, hname, hok⟩ := diamond_exposes (.ofPackages ["main"] "main")
  obtain ⟨-, hmethods, -⟩ :=
    exposed_methods_resolve (hierarchy diamondClasses) hspelled
    (x := ⟨diamond, .ofPackages ["main"] "main"⟩) hdeclared
    diamond_linearizes hok
  obtain ⟨d, f, hlooked, hdescribing⟩ := hmethods m (List.mem_singleton_self m)
  have hd : d = diamondLeft := by
    rw [hname] at hlooked
    cases hlooked
    rfl
  subst hd
  refine ⟨hspelled, hdeclared, diamond_linearizes, f, m, hok,
    hdescribing fun e he hmethod => ?_⟩
  have hmem := (diamond_linearizes.extends.members e).mpr he
  rw [hname] at hmethod
  simp only [List.mem_cons, List.not_mem_nil, or_false] at hmem
  rcases hmem with rfl | rfl | rfl | rfl
  · exact absurd hmethod (by decide)
  · exact .refl
  · exact absurd hmethod (by decide)
  · exact .single (by rw [diamond_bases.2.1]; exact List.mem_singleton_self _)

end Sample

end BridgeBindings
