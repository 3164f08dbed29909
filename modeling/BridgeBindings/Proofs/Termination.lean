import BridgeBindings.Proofs.Declared
import BridgeBindings.Proofs.Mentions
import BridgeBindings.Proofs.Steps

/-!
# Resolutions end

The levels of a resolution are bookkeeping, not a bound: no resolution of a
program needs more than there are, and with more of them nothing changes.

The variant is what a store leaves free, the classes and aliases of the program
that carry no mark. A class or alias that is entered is one of these and is
marked, so each level has less left free than the one above; one that is marked
already answers at once. Every step takes its marks back, which is what keeps
the variant the same for all that runs on one level. A class whose name belongs
to another module is answered before the mark is looked at, so no mark is needed
there. The texts of quoted annotations have levels of their own.
-/

namespace BridgeBindings

open Syntax

namespace Symbols

/-! ## What is left free -/

/-- The structs of all classes of a program, one for each class. -/
def classKeys (t : Symbols) : List StructKey :=
  t.scopes.values.flatMap fun s => s.classes.keys.map (⟨s.package, ·⟩)

/-- The qualified names of all aliases of a program. -/
def aliasNames (t : Symbols) : List String :=
  t.scopes.values.flatMap fun s => s.aliases.keys.map (s.module ++ "." ++ ·)

/-- How many classes and aliases carry no mark. -/
def free (t : Symbols) (s : Store) : Nat :=
  (t.classKeys.filter (· ∉ s.classes)).length +
    (t.aliasNames.filter (· ∉ s.aliases)).length

variable {t : Symbols}

/-- How much is free depends on the marks alone. -/
theorem free_congr (t : Symbols) {s s' : Store}
    (hclasses : s'.classes = s.classes) (haliases : s'.aliases = s.aliases) :
    t.free s' = t.free s := by
  unfold free
  rw [hclasses, haliases]

theorem free_registered (t : Symbols) (s : Store) (c : ProgramClass) :
    t.free (s.registered c) = t.free s :=
  t.free_congr (s.registered_marks c).1 (s.registered_marks c).2

theorem free_lt_levels (t : Symbols) (s : Store) : t.free s < t.levels := by
  have hclasses :=
    List.length_filter_le (fun k => decide (k ∉ s.classes)) t.classKeys
  have haliases :=
    List.length_filter_le (fun n => decide (n ∉ s.aliases)) t.aliasNames
  have htotal : t.classKeys.length + t.aliasNames.length + 1 = t.levels := by
    unfold classKeys aliasNames levels
    induction t.scopes.values with
    | nil => rfl
    | cons scope scopes ih =>
        simp only [List.flatMap_cons, List.length_append,
          List.length_map] at ih ⊢
        omega
  unfold free
  omega

theorem key_mem_classKeys {c : ProgramClass} (h : t.Declares c) :
    c.key ∈ t.classKeys :=
  List.mem_flatMap.mpr ⟨c.scope, Table.mem_values_of_get? h.inTree,
    List.mem_map.mpr ⟨c.name, Table.mem_keys_of_get? h.decl, rfl⟩⟩

theorem name_mem_aliasNames {scope : Scope} {name : String} {value : Expr}
    (h : t.DeclaresAlias scope name value) :
    scope.module ++ "." ++ name ∈ t.aliasNames :=
  List.mem_flatMap.mpr ⟨scope, Table.mem_values_of_get? h.inTree,
    List.mem_map.mpr ⟨name, Table.mem_keys_of_get? h.decl, rfl⟩⟩

/-- Marking one more element leaves fewer of them free. -/
theorem filter_mark_lt {α : Type} [DecidableEq α] {xs marked : List α}
    {x : α} (hx : x ∈ xs) (hfree : x ∉ marked) :
    (xs.filter (· ∉ x :: marked)).length < (xs.filter (· ∉ marked)).length := by
  have hsplit : xs.filter (· ∉ x :: marked) =
      (xs.filter (· ∉ marked)).filter (· ≠ x) := by
    rw [List.filter_filter]
    refine List.filter_congr fun y _ => ?_
    simp [List.mem_cons, not_or]
  rw [hsplit]
  refine List.length_filter_lt_length_iff_exists.mpr ⟨x, ?_, by simp⟩
  exact List.mem_filter.mpr ⟨hx, by simpa using hfree⟩

end Symbols

/-! ## One level -/

/-- Less than so many classes and aliases are left free, and every mark is taken
back. -/
def room (t : Symbols) (n : Nat) : Contract where
  holds s := t.free s < n
  leads a b := b.classes = a.classes ∧ b.aliases = a.aliases
  refl _ := ⟨rfl, rfl⟩
  trans h h' := ⟨h'.1.trans h.1, h'.2.trans h.2⟩

/-- A reading has not stopped for want of levels. -/
def InTime (e : Stop) : Prop := e ≠ .exhausted

/-- An expansion that does not run out of levels. -/
structure Expansion.Ends (expand : Expansion) (t : Symbols)
    (n : Nat) : Prop where
  cls : ∀ c, t.Declares c →
    Keeps (room t n) InTime Always (expand.cls c) fun _ _ => True
  aliased : ∀ site scope name value, t.DeclaresAlias scope name value →
    Keeps (room t n) InTime Always (expand.aliased site scope name value)
      fun _ _ => True

section Level

variable {t : Symbols} {n : Nat} {P : Store → Prop} {α : Type}
    {step : Resolve α}

theorem modify_ends {f : Store → Store}
    (h : ∀ s, (f s).classes = s.classes ∧ (f s).aliases = s.aliases) :
    Keeps (room t n) InTime P (modify f) fun _ _ => True := by
  refine Keeps.modify fun s hs _ => ⟨h s, ?_, trivial⟩
  exact (t.free_congr (h s).1 (h s).2).trans_lt hs

theorem changeDraft_ends (package : String) (f : Draft → Draft) :
    Keeps (room t n) InTime P (Resolve.changeDraft package f) fun _ _ => True :=
  modify_ends fun _ => ⟨rfl, rfl⟩

theorem note_ends (r : LogRecord) :
    Keeps (room t n) InTime P (Resolve.note r) fun _ _ => True :=
  modify_ends fun _ => ⟨rfl, rfl⟩

theorem register_ends (c : ProgramClass) :
    Keeps (room t n) InTime P (Resolve.register c) fun _ _ => True := by
  refine Keeps.run (register_run c) fun s hs _ =>
    ⟨s.registered_marks c, ?_, trivial⟩
  exact (t.free_registered s c).trans_lt hs

theorem structRef_ends {expand : Expansion} (h : expand.Ends t n)
    (owner : String) {c : ProgramClass} (hc : t.Declares c) :
    Keeps (room t n) InTime Always (structRef expand owner c) fun _ _ => True :=
  (h.cls c hc).bind fun _ => (changeDraft_ends _ _).bind fun _ =>
    Keeps.pure fun _ _ _ => trivial

theorem fault_inTime (f : TypeFault) : InTime (.fault f) := fun h => by cases h

theorem namedType_ends {expand : Expansion} (hk : t.Keyed)
    (h : expand.Ends t n) {site : Site} (hs : t.Has site.scope) (row : Nat)
    (dotted : String) :
    Keeps (room t n) InTime Always (namedType t expand site row dotted)
      fun _ _ => True := by
  unfold namedType
  split
  · exact Keeps.throw (fault_inTime _)
  · exact (changeDraft_ends _ _).bind fun _ => Keeps.pure fun _ _ _ => trivial
  · next hl => exact h.aliased _ _ _ _ (Symbols.owns_lookup hk hs hl)
  · next hl =>
      split
      · exact Keeps.pure fun _ _ _ => trivial
      · exact structRef_ends h _ (Symbols.owns_lookup hk hs hl)
  · exact Keeps.throw (fault_inTime _)

theorem annotation_ends {expand : Expansion} (hk : t.Keyed)
    (h : expand.Ends t n) {site : Site} (hs : t.Has site.scope) (e : Expr) :
    Keeps (room t n) InTime Always (annotationWith t expand site e) fun _ _ =>
      True := by
  refine (annotation_keeps (R := fun _ _ => True) (V := fun _ _ => True)
    (fun _ _ _ _ h => h) (fun _ _ _ _ h => h)
    (fun x verdict _ => site.stop_ne_exhausted x.row verdict)
    fun dotted _ row => ?_).post
    fun _ _ _ _ => trivial
  exact (namedType_ends hk h hs row dotted).post fun _ _ _ _ =>
    ⟨trivial, fun _ _ => trivial, trivial⟩

/-- The fields of a class, on the level on which its bases and its annotations
are expanded. -/
theorem collectFields_ends {expand : Expansion} (hk : t.Keyed)
    (h : expand.Ends t n) {c : ProgramClass} (hc : t.Declares c) :
    Keeps (room t n) InTime Always (collectFields t expand c) fun _ _ =>
      True := by
  have hown : ∀ f,
      Keeps (room t n) InTime Always (ownField t expand c f) fun _ _ => True :=
    fun f => (annotation_ends hk h hc.inTree f.typeExpr).bind fun _ =>
      Keeps.pure fun _ _ _ => trivial
  have hbases : Keeps (room t n) InTime Always (baseFields expand (t.bases c))
      fun _ _ => True :=
    Keeps.foldlM (J := fun _ _ => True) (fun _ b hb =>
      (h.cls b (Symbols.declares_bases hk hc hb)).bind fun _ =>
        Keeps.pure fun _ _ _ => trivial) _
  refine hbases.bind fun inherited => ?_
  refine (Keeps.foldlM (J := fun _ _ => True) (fun _ f _ => ?_) _).bind
    fun fields => Keeps.pure fun _ _ _ => trivial
  exact (hown f).bind fun _ => Keeps.pure fun _ _ _ => trivial

/-- A class that is entered leaves less free to what runs inside. -/
theorem free_entering {s : Store} {c : ProgramClass} (hc : t.Declares c)
    (hfree : c.key ∉ s.classes) : t.free (s.entering c.key) < t.free s := by
  have := Symbols.filter_mark_lt (Symbols.key_mem_classKeys hc) hfree
  unfold Symbols.free Store.entering
  dsimp only
  omega

theorem free_expanding {s : Store} {scope : Scope}
    {name : String} {value : Expr} (ha : t.DeclaresAlias scope name value)
    (hfree : scope.module ++ "." ++ name ∉ s.aliases) :
    t.free (s.expanding (scope.module ++ "." ++ name)) < t.free s := by
  have := Symbols.filter_mark_lt (Symbols.name_mem_aliasNames ha) hfree
  unfold Symbols.free Store.expanding
  dsimp only
  omega

theorem withClass_ends {c : ProgramClass} (hc : t.Declares c)
    (h : Keeps (room t n) InTime Always step fun _ _ => True) :
    Keeps (room t (n + 1)) InTime (fun s => c.key ∉ s.classes)
      (Resolve.withClass c.key step) fun _ _ => True := by
  refine Keeps.within (·.entering c.key) (·.leaving c.key) h ?_ ?_
  · exact fun s hs hfree =>
      ⟨Nat.lt_of_lt_of_le (free_entering hc hfree) (Nat.lt_succ_iff.mp hs),
        trivial⟩
  · intro s s' hs _ hl _
    have hsame : (s'.leaving c.key).classes = s.classes ∧
        (s'.leaving c.key).aliases = s.aliases := by
      refine ⟨?_, hl.2⟩
      show s'.classes.erase c.key = s.classes
      rw [hl.1]
      exact List.erase_cons_head ..
    exact ⟨hsame, (t.free_congr hsame.1 hsame.2).trans_lt hs,
      fun _ _ => trivial⟩

theorem withAlias_ends {scope : Scope} {name : String} {value : Expr}
    (ha : t.DeclaresAlias scope name value)
    (h : Keeps (room t n) InTime Always step fun _ _ => True) :
    Keeps (room t (n + 1)) InTime
      (fun s => scope.module ++ "." ++ name ∉ s.aliases)
      (Resolve.withAlias (scope.module ++ "." ++ name) step) fun _ _ =>
        True := by
  refine Keeps.within (·.expanding (scope.module ++ "." ++ name))
    (·.expanded (scope.module ++ "." ++ name)) h ?_ ?_
  · exact fun s hs hfree =>
      ⟨Nat.lt_of_lt_of_le (free_expanding ha hfree) (Nat.lt_succ_iff.mp hs),
        trivial⟩
  · intro s s' hs _ hl _
    have hsame :
        (s'.expanded (scope.module ++ "." ++ name)).classes = s.classes ∧
        (s'.expanded (scope.module ++ "." ++ name)).aliases = s.aliases := by
      refine ⟨hl.1, ?_⟩
      show s'.aliases.erase (scope.module ++ "." ++ name) = s.aliases
      rw [hl.2]
      exact List.erase_cons_head ..
    exact ⟨hsame, (t.free_congr hsame.1 hsame.2).trans_lt hs,
      fun _ _ => trivial⟩

theorem resolveClass_ends {expand : Expansion} (hk : t.Keyed)
    (h : expand.Ends t n) {c : ProgramClass} (hc : t.Declares c) :
    Keeps (room t (n + 1)) InTime Always (resolveClass t expand c) fun _ _ =>
      True := by
  refine (register_ends c).bind fun st => ?_
  refine (Keeps.get (R := fun _ _ => True) fun _ _ _ => trivial).bind fun s0 =>
    ?_
  refine Keeps.read.bind fun seen =>
    .ite (fun _ => Keeps.pure fun _ _ _ => trivial) fun hopen => ?_
  refine (withClass_ends hc ?_).pre fun s _ hs => ?_
  · refine (collectFields_ends hk h hc).bind fun fields =>
      (note_ends _).bind fun _ => ?_
    exact (changeDraft_ends _ _).bind fun _ => Keeps.pure fun _ _ _ => trivial
  · simp only [Bool.or_eq_true, not_or, List.contains_iff_mem] at hopen
    rw [hs.2]
    exact hopen.2

theorem expandAlias_ends {expand : Expansion} (hk : t.Keyed)
    (h : expand.Ends t n) (site : Site) {scope : Scope}
    {name : String} {value : Expr} (ha : t.DeclaresAlias scope name value) :
    Keeps (room t (n + 1)) InTime Always
      (expandAlias t expand site scope name value) fun _ _ => True := by
  refine Keeps.read.bind fun seen =>
    .ite (fun _ => Keeps.pure fun _ _ _ => trivial) fun hopen => ?_
  refine (withAlias_ends ha (annotation_ends hk h ha.inTree value)).pre
    fun s _ hs => ?_
  simp only [Bool.or_eq_true, not_or, List.contains_iff_mem] at hopen
  rw [hs.2]
  exact hopen.2

end Level

/-! ## All levels -/

/-- By induction on the levels: with more of them than are left free, none runs
out. -/
theorem levels_end {t : Symbols} (hk : t.Keyed) (n : Nat) :
    Expansion.Ends ⟨classAt t n, aliasAt t n⟩ t n := by
  induction n with
  | zero => exact ⟨fun _ _ _ hs => absurd hs (Nat.not_lt_zero _),
      fun _ _ _ _ _ _ hs => absurd hs (Nat.not_lt_zero _)⟩
  | succ n ih =>
      rw [levels_succ]
      refine ⟨fun c hc => ?_, fun site scope name value ha => ?_⟩
      · exact resolveClass_ends hk ih hc
      · exact expandAlias_ends hk ih site ha

end BridgeBindings
