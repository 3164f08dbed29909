import BridgeBindings.Proofs.Survey

/-!
# Programs whose hierarchies are not too deep

Bases are followed up to a fixed depth only. Where every chain of bases is
shorter than that, the depth does not show: what a class is by its bases is what
it is by all of them. Then no base of a record or of a plain class is an enum,
and a class that is no record has no fields and inherits none, so resolving it
leads to no annotation at all.

That is what makes an analysis complete. The structs that a fault can
leave waiting are those of records, all records of a package are resolved
when its turn comes, and a package for which that has gone well has
nothing left to wait for.
-/

namespace BridgeBindings

open Syntax Analyze

namespace Symbols

/-- Every chain of bases is shorter than the depth to which bases
are followed. -/
def Shallow (t : Symbols) : Prop :=
  ∀ c chain, t.Declares c →
    List.IsChain (fun c b => b ∈ t.bases c) (c :: chain) →
    chain.length < maxBaseDepth

/-- No base is an enum of the program with something in brackets behind it. -/
def PlainEnums (t : Symbols) : Prop :=
  ∀ c, t.Declares c →
    ∀ pos value index, Expr.subscript pos value index ∈ c.decl.bases →
    ∀ b, value.dotted?.bind (t.lookupClass c.scope) = some b →
      t.enumType b = none

/-- The bases of a class end within this many steps. -/
def Within (t : Symbols) (n : Nat) (c : ProgramClass) : Prop :=
  ∀ chain, List.IsChain (fun c b => b ∈ t.bases c) (c :: chain) →
    chain.length ≤ n

section Depth

variable {t : Symbols} {c b : ProgramClass}

theorem within_of_shallow (h : t.Shallow) (hc : t.Declares c) :
    t.Within (maxBaseDepth - 1) c :=
  fun chain hchain => Nat.le_sub_one_of_lt (h c chain hc hchain)

theorem Within.base {n : Nat} (h : t.Within n c) (hb : b ∈ t.bases c) :
    ∃ m, n = m + 1 ∧ t.Within m b := by
  have hlonger : ∀ chain, List.IsChain (fun c b => b ∈ t.bases c) (b :: chain) →
      chain.length + 1 ≤ n :=
        fun chain hchain => h (b :: chain) (.cons_cons hb hchain)
  obtain ⟨m, rfl⟩ : ∃ m, n = m + 1 :=
    ⟨n - 1, by have := hlonger [] (.singleton b); omega⟩
  exact ⟨m, rfl, fun chain hchain => by have := hlonger chain hchain; omega⟩

/-- Chains of bases are no longer than a rank that every base lowers. -/
theorem shallow_of_rank (hk : t.Keyed) (rank : ProgramClass → Nat)
    (hlower : ∀ c b, t.Declares c → b ∈ t.bases c → rank b < rank c)
    (hbound : ∀ c, t.Declares c → rank c < maxBaseDepth) : t.Shallow := by
  have hlength : ∀ chain c, t.Declares c →
      List.IsChain (fun c b => b ∈ t.bases c) (c :: chain) →
      chain.length ≤ rank c := by
    intro chain
    induction chain with
    | nil => exact fun _ _ _ => Nat.zero_le _
    | cons b chain ih =>
        intro c hc hchain
        obtain ⟨hb, hrest⟩ := List.isChain_cons_cons.mp hchain
        have hshorter := ih b (declares_bases hk hc hb) hrest
        have hless := hlower c b hc hb
        rw [List.length_cons]
        omega
  exact fun c chain hc hchain =>
    Nat.lt_of_le_of_lt (hlength chain c hc hchain) (hbound c hc)

/-! ## Enums -/

/-- A base that names a class is one of the bases. -/
theorem mem_bases {e : Expr} (he : e ∈ c.decl.bases) {dotted : String}
    (hd : e.dotted? = some dotted)
    (hl : t.lookup c.scope dotted = some (.cls b)) : b ∈ t.bases c := by
  refine List.mem_filterMap.mpr ⟨e, he, ?_⟩
  have hbase : t.baseClass c.scope e = e.dotted?.bind
      (t.lookupClass c.scope) := by
    cases e with
    | subscript => cases hd
    | _ => rfl
  rw [hbase, hd, Option.bind_some]
  unfold lookupClass
  rw [hl]

theorem add_congr {f g : ProgramClass → Option TypeRef}
    {scope : Scope} {e : Expr}
    (h : ∀ dotted b, e.dotted? = some dotted →
      t.lookup scope dotted = some (.cls b) → f b = g b)
    (traits : EnumTraits) :
    traits.add t f scope e = traits.add t g scope e := by
  unfold EnumTraits.add
  cases hd : e.dotted? with
  | none => rfl
  | some dotted =>
      dsimp only
      cases primitiveBase? scope dotted with
      | some p => rfl
      | none =>
          dsimp only
          cases hl : t.lookup scope dotted with
          | none => rfl
          | some symbol =>
              cases symbol with
              | cls b =>
                  dsimp only
                  rw [h dotted b hd hl]
              | _ => rfl

theorem enumTypeWithin_congr {d d' : Nat}
    (h : ∀ b ∈ t.bases c, t.enumTypeWithin d b = t.enumTypeWithin d' b) :
    t.enumTypeWithin (d + 1) c = t.enumTypeWithin (d' + 1) c := by
  have hfold := List.foldl_ext (EnumTraits.add t (t.enumTypeWithin d) c.scope)
    (EnumTraits.add t (t.enumTypeWithin d') c.scope) {} fun traits e he =>
      add_congr (fun dotted b hd hl => h b (mem_bases he hd hl)) traits
  rw [enumTypeWithin, enumTypeWithin, hfold]

/-- More depth than there are bases changes nothing. -/
theorem enumTypeWithin_stable {n d d' : Nat} (h : t.Within n c) (hd : n < d)
    (hd' : n < d') : t.enumTypeWithin d c = t.enumTypeWithin d' c := by
  induction n generalizing c d d' with
  | zero =>
      obtain ⟨d, rfl⟩ : ∃ k, d = k + 1 := ⟨d - 1, by omega⟩
      obtain ⟨d', rfl⟩ : ∃ k, d' = k + 1 := ⟨d' - 1, by omega⟩
      refine enumTypeWithin_congr fun b hb => ?_
      obtain ⟨m, hm, -⟩ := h.base hb
      cases hm
  | succ n ih =>
      obtain ⟨d, rfl⟩ : ∃ k, d = k + 1 := ⟨d - 1, by omega⟩
      obtain ⟨d', rfl⟩ : ∃ k, d' = k + 1 := ⟨d' - 1, by omega⟩
      refine enumTypeWithin_congr fun b hb => ?_
      obtain ⟨m, hm, hwithin⟩ := h.base hb
      cases hm
      exact ih hwithin (by omega) (by omega)

theorem isEnum_add (f : ProgramClass → Option TypeRef)
    (scope : Scope) (e : Expr) {traits : EnumTraits}
    (h : traits.isEnum = true) : (traits.add t f scope e).isEnum = true := by
  unfold EnumTraits.add
  repeat' split
  all_goals first
    | exact h
    | rfl

/-- A name that stands for something in the program is no name of
the language. -/
theorem primitiveBase_none {scope : Scope} {dotted : String} {symbol : Symbol}
    (hl : t.lookup scope dotted = some symbol) :
    primitiveBase? scope dotted = none := by
  unfold primitiveBase?
  split
  · rfl
  · next hfree =>
      rw [Bool.or_eq_true, not_or, Bool.not_eq_true, Bool.not_eq_true] at hfree
      obtain ⟨hdefines, himports⟩ := hfree
      by_contra hsome
      obtain ⟨p, hp⟩ := Option.ne_none_iff_exists'.mp hsome
      obtain ⟨before, after, he, -⟩ := List.lookup_eq_some_iff.mp hp
      have hmem : (dotted, p) ∈ primitiveNames := by
        rw [he]
        exact List.mem_append_right _ List.mem_cons_self
      have hplain : ∀ x ∈ primitiveNames, splitHead x.1 = (x.1, "") := by decide
      have hdeclared : scope.declared? dotted = none := by
        unfold Scope.defines Table.contains at hdefines
        rw [Bool.or_eq_false_iff, Bool.or_eq_false_iff,
          Option.isSome_eq_false_iff, Option.isSome_eq_false_iff,
          Option.isSome_eq_false_iff] at hdefines
        unfold Scope.declared?
        rw [Option.isNone_iff_eq_none.mp hdefines.1.1,
          Option.isNone_iff_eq_none.mp hdefines.1.2,
          Option.isNone_iff_eq_none.mp hdefines.2]
        rfl
      have himport : scope.imports.get? dotted = none := by
        unfold Table.contains at himports
        rwa [Option.isSome_eq_false_iff, Option.isNone_iff_eq_none] at himports
      unfold lookup at hl
      rw [hplain _ hmem] at hl
      dsimp only at hl
      rw [hdeclared, himport] at hl
      cases hl

theorem isEnum_of_base {f : ProgramClass → Option TypeRef}
    {scope : Scope} {e : Expr} {dotted : String} (hd : e.dotted? = some dotted)
    (hl : t.lookup scope dotted = some (.cls b)) (hf : f b ≠ none)
    (traits : EnumTraits) : (traits.add t f scope e).isEnum = true := by
  obtain ⟨type, htype⟩ := Option.ne_none_iff_exists'.mp hf
  unfold EnumTraits.add
  rw [hd]
  dsimp only
  rw [primitiveBase_none hl, hl]
  dsimp only
  rw [htype]
  cases type <;> rfl

theorem isEnum_foldl {f : ProgramClass → Option TypeRef} {scope : Scope}
    {es : List Expr} {e : Expr} (he : e ∈ es)
    (h : ∀ traits : EnumTraits, (traits.add t f scope e).isEnum = true)
    (traits : EnumTraits) :
    (es.foldl (EnumTraits.add t f scope) traits).isEnum = true := by
  induction es generalizing traits with
  | nil => exact absurd he List.not_mem_nil
  | cons x es ih =>
      rcases List.mem_cons.mp he with rfl | he
      · exact List.foldlRecOn
          (motive := fun traits : EnumTraits => traits.isEnum = true)
          es _ (h traits) fun traits htraits x _ => isEnum_add f scope x htraits
      · exact ih he _

/-- The bases of a class that is no enum are no enums. -/
theorem base_of_noEnum (hshallow : t.Shallow) (henums : t.PlainEnums)
    (hc : t.Declares c) (hnone : t.enumType c = none) (hb : b ∈ t.bases c) :
    t.enumType b = none := by
  obtain ⟨e, he, hbase⟩ := List.mem_filterMap.mp hb
  by_cases hsubscript : ∃ pos value index, e = .subscript pos value index
  · obtain ⟨pos, value, index, rfl⟩ := hsubscript
    exact henums c hc pos value index he b hbase
  have hplain : t.baseClass c.scope e = e.dotted?.bind
      (t.lookupClass c.scope) := by
    cases e with
    | subscript pos value index =>
        exact absurd ⟨pos, value, index, rfl⟩ hsubscript
    | _ => rfl
  obtain ⟨dotted, hd, hclass⟩ := Option.bind_eq_some_iff.mp (hplain ▸ hbase)
  have hl : t.lookup c.scope dotted = some (.cls b) := by
    unfold lookupClass at hclass
    split at hclass
    · next hl =>
        cases hclass
        exact hl
    · cases hclass
  by_contra hsome
  -- the class looks at its base with one step less, which is enough in a
  -- shallow hierarchy
  have hinherited : t.enumTypeWithin (maxBaseDepth - 1) b ≠ none := by
    have hwithin : t.Within (maxBaseDepth - 1) c :=
      within_of_shallow hshallow hc
    obtain ⟨m, hm, hwithin⟩ := hwithin.base hb
    rw [enumTypeWithin_stable hwithin (by omega)
      (show m < maxBaseDepth by omega)]
    exact hsome
  have henum := isEnum_foldl he (isEnum_of_base hd hl hinherited) {}
  have htype : t.enumType c = ((c.decl.bases.foldl (EnumTraits.add t
      (t.enumTypeWithin (maxBaseDepth - 1)) c.scope) {}).type? c.decl) := rfl
  rw [htype] at hnone
  unfold EnumTraits.type? at hnone
  rw [if_pos henum] at hnone
  split at hnone <;> cases hnone

/-! ## Records -/

/-- What resolving a class comes to that is no record and has no record among
its bases: classes of the same kind, nearer to the end of their bases. -/
def Bare (t : Symbols) : Item → Prop
  | .cls c => ∃ n, t.Within n c ∧ t.reachesRecord (n + 1) c = false
  | .expr .. => False

theorem bare_lead {a b : Item} (h : t.Leads a b) (ha : t.Bare a) :
    t.Bare b := by
  cases h with
  | base isBase =>
      obtain ⟨n, hwithin, hnone⟩ := ha
      obtain ⟨m, rfl, hm⟩ := hwithin.base isBase
      rw [reachesRecord, Bool.or_eq_false_iff] at hnone
      refine ⟨m, hm, ?_⟩
      have := List.any_eq_false.mp hnone.2 _ isBase
      rwa [Bool.not_eq_true] at this
  | field declared =>
      obtain ⟨n, hwithin, hnone⟩ := ha
      rw [reachesRecord, Bool.or_eq_false_iff] at hnone
      unfold ClassDef.isRecord at hnone
      rw [Bool.or_eq_false_iff, Bool.not_eq_false', List.isEmpty_iff] at hnone
      rw [hnone.1.2] at declared
      cases declared
  | named => exact ha.elim
  | aliased => exact ha.elim

/-- A class that is neither an enum nor a record leads to no annotation. -/
theorem bare_of_noRecord (hshallow : t.Shallow) (hc : t.Declares c)
    (hnone : t.enumType c = none) (hrecord : t.isRecord c ≠ true) {item : Item}
    (h : t.Reaches (.cls c) item) : t.Bare item := by
  have hnot : t.isRecord c = false := Bool.eq_false_iff.mpr hrecord
  unfold isRecord at hnot
  rw [hnone] at hnot
  induction h with
  | refl => exact ⟨maxBaseDepth - 1, within_of_shallow hshallow hc, hnot⟩
  | tail _ hl ih => exact bare_lead hl ih

/-- Resolving a class that is neither an enum nor a record is never stopped. -/
theorem unstopped_of_noRecord (hshallow : t.Shallow) (hc : t.Declares c)
    (hnone : t.enumType c = none) (hrecord : t.isRecord c ≠ true)
    (stop : Stop) : ¬Stops t (.cls c) stop := by
  have hbare {item : Item} : t.Reaches (.cls c) item → t.Bare item :=
    bare_of_noRecord hshallow hc hnone hrecord
  cases stop with
  | fault f =>
      rintro ⟨scope, e, hreaches, -⟩
      exact hbare hreaches
  | broken b =>
      rintro ⟨scope, e, x, hreaches, -⟩
      exact hbare hreaches
  | exhausted => exact id

/-- Only records need ever be left waiting. -/
theorem visits_records (hshallow : t.Shallow) (henums : t.PlainEnums) :
    t.Visits (fun c => t.enumType c = none) fun c => t.isRecord c = true where
  bases c hc hnone b hb := base_of_noEnum hshallow henums hc hnone hb
  named c _ hnone := hnone
  left c hc hnone := by
    by_cases hrecord : t.isRecord c = true
    · exact .inl hrecord
    · exact .inr (unstopped_of_noRecord hshallow hc hnone hrecord)

end Depth

end Symbols

/-! ## Complete analyses -/

theorem mem_classes {t : Symbols} {c : ProgramClass} (hc : t.Declares c) :
    c ∈ classes t := by
  have hentry : (c.scope.module, c.scope) ∈ t.scopes.entries :=
    Table.get?_mem hc.inTree
  exact List.mem_flatMap.mpr
    ⟨c.scope, List.mem_map.mpr ⟨_, List.mem_mergeSort.mpr hentry, rfl⟩,
    List.mem_map.mpr ⟨c.decl, Table.mem_values_of_get? hc.decl, rfl⟩⟩

theorem mem_records {t : Symbols} {c : ProgramClass} (hc : t.Declares c)
    (hrecord : t.isRecord c = true) : c ∈ records t :=
  List.mem_filter.mpr ⟨mem_classes hc, hrecord⟩

theorem isRecord_of_mem {t : Symbols} {c : ProgramClass} (hc : c ∈ records t) :
    t.isRecord c = true := (List.mem_filter.mp hc).2

/-- Records are no enums. -/
theorem enumType_of_isRecord {t : Symbols} {c : ProgramClass}
    (h : t.isRecord c = true) : t.enumType c = none := by
  unfold Symbols.isRecord at h
  rw [Bool.and_eq_true, Option.isNone_iff_eq_none] at h
  exact h.1

/-- A package that has not failed has nothing left that waits. -/
theorem pending_nil {t : Symbols} {bound : ProgramClass → Prop}
    {failures : Table TypeFault} {done : List String} {s : Store}
    (hs : (lasting t fun c => t.isRecord c = true).holds s)
    (h : Surveyed t bound failures done s) {package : String}
    (hp : package ∈ done) (hnone : failures.get? package = none) :
    (s.draft package).pending = [] := by
  refine List.eq_nil_iff_forall_not_mem.mpr fun n hn => ?_
  have hkey : n ∈ (s.draft package).structs.keys :=
    (List.mem_filter.mp (mem_sortedSet.mp hn)).1
  obtain ⟨x, hx, rfl⟩ := List.mem_map.mp hkey
  obtain ⟨st, hst⟩ := Option.isSome_iff_exists.mp (Table.find_isSome hx)
  obtain ⟨c, hc, hrecord, hkey, hmodule, -, hwaits⟩ := waiting_left hs hn hst
  have hsettled := h.settled package hp hnone c (mem_records hc hrecord)
    (congrArg StructKey.package hkey)
  obtain ⟨st', hst', hown⟩ := hsettled
  rw [hkey, show s.get? ⟨package, x.1⟩ = some st from hst] at hst'
  cases hst'
  rcases hown hmodule with hres | hmark
  · exact hwaits hres
  · rw [hs.2] at hmark
    exact absurd hmark List.not_mem_nil

/-- Every program with shallow hierarchies is analysed to the end, whatever
fails, and each of its packages is either built or among the failures; unless
the analysis breaks down over an expression that the program has where a message
has to name it, and that cannot be written out. -/
theorem analysis_completes (p : Program) (config : Config) (log : Log)
    (hshallow : (Symbols.ofProgram p).Shallow)
    (henums : (Symbols.ofProgram p).PlainEnums) :
    (∃ r, Analysis.answer config p log = .ok r ∧
      ∀ package ∈ p.packages.keys,
        r.packages.contains package = !r.failures.contains package) ∨
    ∃ b, Analysis.answer config p log = .error (.broken b) ∧
      (Symbols.ofProgram p).Untold config p.entryFile b := by
  have hvisits := Symbols.visits_records hshallow henums
  obtain ⟨hstops, hplaced⟩ := answer_placed
    (E := fun f => ∃ b, f = .broken b ∧
      (Symbols.ofProgram p).Untold config p.entryFile b)
    hvisits (fun _ => enumType_of_isRecord) (fun _ => isRecord_of_mem)
    (.sorted p) config log (fun b huntold => ⟨b, rfl, huntold⟩)
    fun s failures hs h package hp hnone => .inl (pending_nil hs h hp hnone)
  rw [Order.sorted_answer] at hstops hplaced
  cases hr : Analysis.answer config p log with
  | error f =>
      obtain ⟨b, rfl, huntold⟩ := hstops f hr
      exact .inr ⟨b, rfl, huntold⟩
  | ok r =>
      refine .inl ⟨r, rfl, fun package hp => ?_⟩
      obtain ⟨failures, -, hr⟩ := hplaced r hr
      have hfailed : r.failures.contains package =
          (failures.get? package).isSome := by
        unfold Table.contains
        rw [hr.failed, if_pos hp]
      rw [hfailed, Bool.eq_iff_iff, hr.built]
      cases failures.get? package with
      | none => exact ⟨fun _ => rfl, fun _ => ⟨hp, rfl⟩⟩
      | some f => exact ⟨fun h => (by cases h.2), fun h => (by cases h)⟩

namespace Sample

def stuckCls : ClassDef := cls "A" [] [field "x" (name "Nowhere")]

def derivedCls : ClassDef := cls "B" ["A"] [field "y" (name "int")]

def stuckSource : Source :=
  source "main" "main" [.cls stuckCls, .cls derivedCls]

/-- A class whose base cannot be resolved. -/
def stuck : Program := program [stuckSource]

theorem stuck_declares {c : ProgramClass}
    (h : (Symbols.ofProgram stuck).Declares c) :
    c = ⟨.ofSource stuckSource, stuckCls⟩ ∨
    c = ⟨.ofSource stuckSource, derivedCls⟩ := by
  obtain ⟨scope, decl⟩ := c
  obtain rfl : scope = _ := has_source_only h.inTree
  have hdecl : decl ∈ [stuckCls, derivedCls] := Table.mem_values_of_get? h.decl
  rcases List.mem_cons.mp hdecl with rfl | hdecl
  · exact .inl rfl
  · rw [List.mem_singleton.mp hdecl]
    exact .inr rfl

theorem stuck_bases :
    (Symbols.ofProgram stuck).bases ⟨.ofSource stuckSource, derivedCls⟩ =
    [⟨.ofSource stuckSource, stuckCls⟩] := by
  unfold stuck
  rw [symbols_source]
  rfl

/-- Whatever is wrong with the program can be told. -/
theorem stuck_told (b : Breakdown) :
    ¬(Symbols.ofProgram stuck).Untold config stuck.entryFile b := by
  have hnone : (BridgeCalls.collect (bridgeOf (Symbols.ofProgram stuck) config
      stuck.entryFile) stuckSource.tree).bound = [] :=
        List.isEmpty_iff.mp (by decide +kernel)
  have hbound :
      ¬∃ c, (Symbols.ofProgram stuck).Binds config stuck.entryFile c := by
    rintro ⟨c, file, scope, hfile, -, e, he, -⟩
    cases hfile
    rw [hnone] at he
    cases he
  have hfields : ∀ c, (Symbols.ofProgram stuck).Declares c →
      ∀ f ∈ c.decl.fields, f.typeExpr.dotted? ≠ none := by
    intro c hc f hf
    rcases stuck_declares hc with rfl | rfl <;>
      cases List.mem_singleton.mp hf <;> exact nofun
  have haliases : ∀ scope name value,
      (Symbols.ofProgram stuck).DeclaresAlias scope name value →
      value.dotted? ≠ none := by
    intro scope name value h
    obtain rfl : scope = .ofSource stuckSource := has_source_only h.inTree
    exact nomatch h.decl
  intro huntold
  cases huntold with
  | record declared untold =>
      unfold stuck at untold
      rw [symbols_source] at untold
      rcases stuck_declares declared with rfl | rfl <;> cases untold
  | method isBound => exact hbound ⟨_, isBound⟩
  | part starts untold =>
      cases starts with
      | cls declared =>
          exact Symbols.told_of_named (Symbols.keyed_ofProgram stuck) hfields
            haliases declared b untold
      | signature isBound => exact hbound ⟨_, isBound⟩
  | object isEntry _ isBound =>
      cases isEntry
      rw [hnone] at isBound
      cases isBound

/-- Nothing of this program breaks the analysis down, so it has a result. -/
theorem stuck_completes : (Symbols.ofProgram stuck).Shallow ∧
    (Symbols.ofProgram stuck).PlainEnums ∧
    ∃ r, Analysis.answer config stuck [] = .ok r ∧
      r.packages.contains "main" = !r.failures.contains "main" := by
  have hshallow : (Symbols.ofProgram stuck).Shallow := by
    refine Symbols.shallow_of_rank (Symbols.keyed_ofProgram stuck)
      (fun c => if c.name = "B" then 1 else 0) (fun c b hc hb => ?_) fun c _ =>
        ?_
    · rcases stuck_declares hc with rfl | rfl
      · cases hb
      · rw [stuck_bases] at hb
        rw [List.mem_singleton.mp hb]
        decide
    · split <;> decide
  have henums : (Symbols.ofProgram stuck).PlainEnums := by
    intro c hc pos value index hsubscript
    rcases stuck_declares hc with rfl | rfl
    · cases hsubscript
    · cases List.mem_singleton.mp hsubscript
  rcases analysis_completes stuck config [] hshallow henums
    with ⟨r, hr, hplaced⟩ | ⟨b, -, huntold⟩
  · exact ⟨hshallow, henums, r, hr, hplaced "main" (by decide)⟩
  · exact absurd huntold (stuck_told b)

/-- A decorator without a name, and without a text: what is between its braces
would be written with a backslash. -/
def oddDecorator : Expr :=
  .subscript start (name "plugins")
    (.joined start [.formatted start (quoted "\u00a0") none none])

def oddCls : ClassDef :=
  { cls "Note" [] [field "text" (name "str")] with
    decorators := [oddDecorator] }

def oddSource : Source := source "main" "main" [.cls oddCls]

def odd : Program := program [oddSource]

theorem odd_declares {c : ProgramClass}
    (h : (Symbols.ofProgram odd).Declares c) :
    c = ⟨.ofSource oddSource, oddCls⟩ := by
  obtain ⟨scope, decl⟩ := c
  obtain rfl : scope = _ := has_source_only h.inTree
  have hdecl : decl ∈ [oddCls] := Table.mem_values_of_get? h.decl
  rw [List.mem_singleton.mp hdecl]

/-- The decorator is looked at to tell whether the class is a record, and the
analysis ends there, although nothing is wrong with the only field. -/
theorem odd_breaks : (Symbols.ofProgram odd).Shallow ∧
    (Symbols.ofProgram odd).PlainEnums ∧ Analysis.answer config odd [] = .error
    (.broken .backslash) := by
  refine ⟨?_, ?_, ?_⟩
  · refine Symbols.shallow_of_rank (Symbols.keyed_ofProgram odd) (fun _ => 0)
      (fun c b hc hb => ?_) fun c _ => by decide
    rw [odd_declares hc] at hb
    cases hb
  · intro c hc pos value index hsubscript
    rw [odd_declares hc] at hsubscript
    cases hsubscript
  · have hclasses : classes (Symbols.ofProgram odd) =
        [⟨.ofSource oddSource, oddCls⟩] := by
      have hscopes : (Symbols.ofProgram odd).sortedScopes =
          [.ofSource oddSource] := by
        unfold odd
        rw [symbols_source]
        exact congrArg (List.map _) (List.mergeSort_singleton _)
      unfold classes
      rw [hscopes]
      rfl
    unfold Analysis.answer Analyze.program
    rw [hclasses]
    unfold odd
    rw [symbols_source]
    rfl

end Sample

end BridgeBindings
