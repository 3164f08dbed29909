import BridgeBindings.Proofs.Provenance

/-!
# What a resolution sees of a store

Of all that is in a store a resolution looks at three things: which structs have
their fields and what these are, which classes are being resolved, and which
aliases are being expanded. When no two classes of a package share a name, a
class answers from its struct if that has its fields or is being resolved, and
collects them otherwise; `resolveClass_run` says this in one equation. Comments
play no part, so fields count by their names and types.
-/

namespace BridgeBindings

open Syntax

/-! ## Distinct names -/

namespace Symbols

/-- No package has two classes of one name, and names of aliases are plain: the
dot before them is the last one of their qualified names. -/
structure Distinct (t : Symbols) : Prop where
  cls : ∀ c d, t.Declares c → t.Declares d → c.key = d.key → c = d
  plain : ∀ scope name value, t.DeclaresAlias scope name value →
      '.' ∉ name.toList

theorem append_inj_of_last {α : Type} {x : α} {xs ys as bs : List α}
    (ha : x ∉ as) (hb : x ∉ bs) (h : xs ++ x :: as = ys ++ x :: bs) :
    xs = ys ∧ as = bs := by
  rcases List.append_eq_append_iff.mp h with ⟨cs, rfl, hcs⟩ | ⟨cs, rfl, hcs⟩
  · cases cs with
    | nil =>
        cases hcs
        exact ⟨(List.append_nil xs).symm, rfl⟩
    | cons c cs =>
        cases hcs
        exact absurd (List.mem_append_right _ List.mem_cons_self) ha
  · cases cs with
    | nil =>
        cases hcs
        exact ⟨List.append_nil ys, rfl⟩
    | cons c cs =>
        cases hcs
        exact absurd (List.mem_append_right _ List.mem_cons_self) hb

theorem Distinct.alias {t : Symbols} (hd : t.Distinct) {scope scope' : Scope}
    {name name' : String} {value value' : Expr}
    (h : t.DeclaresAlias scope name value)
    (h' : t.DeclaresAlias scope' name' value')
    (he : scope.module ++ "." ++ name = scope'.module ++ "." ++ name') :
    scope = scope' ∧ value = value' := by
  have hchars := congrArg String.toList he
  simp only [String.toList_append, List.append_assoc] at hchars
  obtain ⟨hmodule, hname⟩ :=
    append_inj_of_last (hd.plain _ _ _ h) (hd.plain _ _ _ h') hchars
  have hscope : some scope = some scope' := by
    rw [← h.inTree, ← h'.inTree, String.toList_inj.mp hmodule]
  cases hscope
  have hvalue : some value = some value' := by
    rw [← h.decl, ← h'.decl, String.toList_inj.mp hname]
  cases hvalue
  exact ⟨rfl, rfl⟩

end Symbols

/-! ## Structs with their fields -/

/-- Fields by name and type, in order. -/
abbrev Shape := List (String × TypeRef)

/-- The names and types of fields. -/
def shapeOf (fields : List StructField) : Shape :=
  fields.map fun f => (f.name, f.type)

/-- The fields of a struct that has got them. -/
def Store.done (s : Store) (k : StructKey) : Option Shape :=
  if k.name ∈ (s.draft k.package).resolved
    then (s.get? k).map (shapeOf ·.fields) else none

theorem ProgramClass.key_eq {c : ProgramClass} {k : StructKey}
    (hp : k.package = c.package) (hn : k.name = c.name) : k = c.key := by
  cases k
  cases hp
  cases hn
  rfl

/-- Every struct belongs to a class of the program, and is blank until it
has its fields. -/
structure Housed (t : Symbols) (s : Store) : Prop where
  named : ∀ p, (s.draft p).name = p
  home : ∀ k st, s.get? k = some st →
    ∃ c, t.Declares c ∧ c.key = k ∧ st.package = k.package ∧
    st.name = k.name ∧ st.module = c.module
  blank : ∀ k st, s.get? k = some st → k.name ∉ (s.draft k.package).resolved →
      st.fields = []
  registered : ∀ k, k.name ∈ (s.draft k.package).resolved → Registered k s

namespace Store

/-- A change of a draft that touches neither structs nor what is resolved. -/
theorem done_setDraft {s : Store} {p : String} {d : Draft}
    (hget : ∀ n, d.get? n = (s.draft p).get? n)
    (hres : d.resolved = (s.draft p).resolved) (k : StructKey) :
    (s.setDraft p d).done k = s.done k := by
  unfold done
  rw [draft_setDraft, get?_setDraft]
  split
  · next hp =>
      rw [hres, hget, ← hp]
      rfl
  · rfl

/-- A struct gets its fields. -/
def completing (s : Store) (c : ProgramClass) (fields : List StructField) :
    Store :=
  s.setDraft c.package ((s.draft c.package).complete c.name fields)

/-- A class that has got its fields is left. -/
def finishing (s : Store) (c : ProgramClass) (fields : List StructField) :
    Store :=
  ((s.note (resolvedRecord c.key fields.length)).completing c
    fields).leaving c.key

theorem get?_registered (s : Store) (c : ProgramClass) (k : StructKey) :
    (s.registered c).get? k = if k = c.key then some (s.structOf c)
      else s.get? k := by
  unfold get?
  rw [draft_registered]
  split
  · next hp =>
      rw [Draft.get?_register]
      split
      · next hn =>
          rw [if_pos (ProgramClass.key_eq hp hn)]
          rfl
      · next hn =>
          have hk : k ≠ c.key := fun hk => hn (congrArg StructKey.name hk)
          rw [if_neg hk, hp]
  · next hp =>
      have hk : k ≠ c.key := fun hk => hp (congrArg StructKey.package hk)
      rw [if_neg hk]

theorem resolved_registered (s : Store) (c : ProgramClass) (p : String) :
    ((s.registered c).draft p).resolved = (s.draft p).resolved := by
  rw [draft_registered]
  split
  · next hp =>
      rw [hp]
      rfl
  · rfl

end Store

section Housed

variable {t : Symbols} {s : Store}

theorem Housed.of_drafts {s' : Store} (h : Housed t s)
    (hd : s'.drafts = s.drafts) : Housed t s' := by
  cases s
  cases s'
  cases hd
  exact ⟨h.named, h.home, h.blank, h.registered⟩

theorem Housed.change {p : String} {d : Draft} (h : Housed t s)
    (hname : d.name = (s.draft p).name)
    (hget : ∀ n, d.get? n = (s.draft p).get? n)
    (hres : d.resolved = (s.draft p).resolved) : Housed t (s.setDraft p d) := by
  have hsame : ∀ k, (s.setDraft p d).get? k = s.get? k := by
    intro k
    rw [Store.get?_setDraft]
    split
    · next hk =>
        rw [hget, ← hk]
        rfl
    · rfl
  have hresolved : ∀ q, ((s.setDraft p d).draft q).resolved =
      (s.draft q).resolved := by
    intro q
    rw [Store.draft_setDraft]
    split
    · next hq => rw [hq, hres]
    · rfl
  refine ⟨fun q => ?_, fun k st hk => ?_, fun k st hk hn => ?_, fun k hk => ?_⟩
  · rw [Store.draft_setDraft]
    split
    · next hq => rw [hname, h.named, hq]
    · exact h.named q
  · rw [hsame] at hk
    exact h.home k st hk
  · rw [hsame] at hk
    rw [hresolved] at hn
    exact h.blank k st hk hn
  · rw [hresolved] at hk
    obtain ⟨st, hst⟩ := h.registered k hk
    exact ⟨st, (hsame k).trans hst⟩

/-- The struct that a class is registered for, whether it has its
fields or not. -/
theorem Housed.structOf (hd : t.Distinct) (h : Housed t s) {c : ProgramClass}
    (hc : t.Declares c) : (s.structOf c).package = c.package ∧
    (s.structOf c).name = c.name ∧
      (s.structOf c).module = c.module ∧
      shapeOf (s.structOf c).fields = (s.done c.key).getD [] ∧
        (c.name ∉ (s.draft c.package).resolved →
          (s.structOf c).fields = []) := by
  unfold Store.structOf Store.done
  cases hst : (s.draft c.package).get? c.name with
  | some st =>
      obtain ⟨c', hc', hkey, hpackage, hname, hmodule⟩ := h.home c.key st hst
      rw [hd.cls c' c hc' hc hkey] at hmodule
      refine ⟨hpackage, hname, hmodule, ?_, h.blank c.key st hst⟩
      show shapeOf st.fields = _
      split
      · rw [show s.get? c.key = some st from hst]
        rfl
      · next hres =>
          rw [h.blank c.key st hst hres]
          rfl
  | none =>
      refine ⟨h.named _, rfl, rfl, ?_, fun _ => rfl⟩
      rw [if_neg]
      · rfl
      · intro hres
        obtain ⟨st, hst'⟩ := h.registered c.key hres
        rw [show s.get? c.key = none from hst] at hst'
        cases hst'

theorem Housed.done_registered (h : Housed t s) (c : ProgramClass)
    (k : StructKey) : (s.registered c).done k = s.done k := by
  unfold Store.done
  rw [Store.resolved_registered, Store.get?_registered]
  split
  · next hres =>
      split
      · next hk =>
          obtain ⟨st, hst⟩ := h.registered k hres
          rw [hst]
          rw [hk] at hst
          have hof : s.structOf c = st := by
            unfold Store.structOf
            rw [show (s.draft c.package).get? c.name = some st from hst]
            rfl
          rw [hof]
      · rfl
  · rfl

theorem Housed.register (hd : t.Distinct) (h : Housed t s) {c : ProgramClass}
    (hc : t.Declares c) : Housed t (s.registered c) := by
  obtain ⟨hpackage, hname, hmodule, -, hblank⟩ := h.structOf hd hc
  refine ⟨fun p => ?_, fun k st hk => ?_, fun k st hk hres => ?_,
    fun k hres => ?_⟩
  · rw [Store.draft_registered]
    split
    · next hp => rw [hp]; exact h.named _
    · exact h.named p
  · rw [Store.get?_registered] at hk
    split at hk
    · next he =>
        cases hk
        rw [he]
        exact ⟨c, hc, rfl, hpackage, hname, hmodule⟩
    · exact h.home k st hk
  · rw [Store.resolved_registered] at hres
    rw [Store.get?_registered] at hk
    split at hk
    · next he =>
        cases hk
        rw [he] at hres
        exact hblank hres
    · exact h.blank k st hk hres
  · rw [Store.resolved_registered] at hres
    unfold Registered
    rw [Store.get?_registered]
    split
    · exact ⟨_, rfl⟩
    · exact h.registered k hres

/-- What completing a registered struct changes. -/
theorem completing_eq {c : ProgramClass} {st : Struct}
    (hst : s.get? c.key = some st) (fields : List StructField) (k : StructKey) :
    (s.completing c fields).get? k =
        (if k = c.key then some { st with fields := fields } else s.get? k) ∧
      (k.name ∈ ((s.completing c fields).draft k.package).resolved ↔
        k = c.key ∨ k.name ∈ (s.draft k.package).resolved) := by
  have hdraft : (s.draft c.package).get? c.name = some st := hst
  have hres : ((s.draft c.package).complete c.name fields).resolved =
      c.name :: (s.draft c.package).resolved := by
    unfold Draft.complete
    rw [hdraft]
  unfold Store.completing
  rw [Store.get?_setDraft, Store.draft_setDraft]
  by_cases hp : k.package = c.package
  · rw [if_pos hp, if_pos hp, hres, Draft.get?_complete, hdraft,
      List.mem_cons, hp]
    by_cases hn : k.name = c.name
    · have hk := ProgramClass.key_eq hp hn
      rw [if_pos hk, if_pos hn]
      exact ⟨rfl, ⟨fun _ => .inl hk, fun _ => .inl hn⟩⟩
    · have hk : k ≠ c.key := fun hk => hn (congrArg StructKey.name hk)
      rw [if_neg hk, if_neg hn, or_iff_right hn, or_iff_right hk]
      refine ⟨?_, Iff.rfl⟩
      rw [← hp]
      rfl
  · have hk : k ≠ c.key := fun hk => hp (congrArg StructKey.package hk)
    rw [if_neg hp, if_neg hp, if_neg hk, or_iff_right hk]
    exact ⟨rfl, Iff.rfl⟩

theorem done_completing {c : ProgramClass} (hreg : Registered c.key s)
    (fields : List StructField) (k : StructKey) :
    (s.completing c fields).done k = if k = c.key then some (shapeOf fields)
      else s.done k := by
  obtain ⟨st, hst⟩ := hreg
  obtain ⟨hget, hres⟩ := completing_eq hst fields k
  unfold Store.done
  rw [hget]
  simp only [hres]
  by_cases hk : k = c.key
  · rw [if_pos hk, if_pos hk, if_pos (.inl hk)]
    rfl
  · rw [if_neg hk, if_neg hk]
    simp only [hk, false_or]

theorem done_finishing {c : ProgramClass} (hreg : Registered c.key s)
    (fields : List StructField) (k : StructKey) :
    (s.finishing c fields).done k = if k = c.key then some (shapeOf fields)
      else s.done k :=
  done_completing (s := s.note _) hreg fields k

theorem Registered.finishing {k : StructKey} (hk : Registered k s)
    (c : ProgramClass) (fields : List StructField) :
    Registered k (s.finishing c fields) :=
  have hgrows : s.Adds (s.finishing c fields) :=
    (Store.Grows.setDraft
      (s := s) (Draft.grows_complete _ c.name fields)).drafts
  hk.adds hgrows

theorem Housed.complete (h : Housed t s) {c : ProgramClass}
    (hreg : Registered c.key s) (fields : List StructField) :
    Housed t (s.completing c fields) := by
  obtain ⟨st, hst⟩ := hreg
  refine ⟨fun p => ?_, fun k st' hk => ?_, fun k st' hk hres => ?_,
    fun k hres => ?_⟩
  · unfold Store.completing
    rw [Store.draft_setDraft]
    split
    · next hp => rw [(Draft.grows_complete _ _ _).name, hp]; exact h.named _
    · exact h.named p
  · rw [(completing_eq hst fields k).1] at hk
    split at hk
    · next he =>
        cases hk
        rw [he]
        exact h.home c.key st hst
    · exact h.home k st' hk
  · rw [(completing_eq hst fields k).2, not_or] at hres
    rw [(completing_eq hst fields k).1, if_neg hres.1] at hk
    exact h.blank k st' hk hres.2
  · unfold Registered
    rw [(completing_eq hst fields k).1]
    rw [(completing_eq hst fields k).2] at hres
    split
    · exact ⟨_, rfl⟩
    · next hk => exact h.registered k (hres.resolve_left hk)

/-! ## Classes and aliases -/

/-- A class that has its fields, or is getting them, is answered
from its struct. -/
def Store.answers (s : Store) (c : ProgramClass) : Prop :=
  s.done c.key ≠ none ∨ c.key ∈ s.classes

theorem withClass_run {α : Type} (key : StructKey)
    (step : Resolve α) (s : Store) : Resolve.withClass key step s =
      ((step (s.entering key)).1, (step (s.entering key)).2.leaving key) := rfl

theorem withAlias_run {α : Type} (name : String)
    (step : Resolve α) (s : Store) : Resolve.withAlias name step s =
      ((step (s.expanding name)).1,
        (step (s.expanding name)).2.expanded name) := rfl

/-- A class is answered at once if its name belongs to another module, if its
struct has its fields, or while these are being collected. -/
def Store.Closes (s : Store) (c : ProgramClass) : Prop :=
  (s.structOf c).module ≠ c.module ∨ c.name ∈ (s.draft c.package).resolved ∨
    c.key ∈ s.classes

theorem resolveClass_steps (expand : Expansion) (c : ProgramClass) :
    (s.Closes c →
      resolveClass t expand c s = (.ok (s.structOf c), s.registered c)) ∧
    (¬s.Closes c → resolveClass t expand c s =
      match collectFields t expand c ((s.registered c).entering c.key) with
      | (.ok fields, s') => (.ok { s.structOf c with fields := fields },
          s'.finishing c fields)
      | (.error e, s') => (.error e, s'.leaving c.key)) := by
  have hget : ((s.registered c).draft c.package).get? c.name =
      some (s.structOf c) := by
    have := s.get?_registered c c.key
    rwa [if_pos rfl] at this
  -- the test is made on the store in which the class is registered, and what it
  -- asks for is the same before
  have hguard : (!((s.registered c).draft c.package).owns c.name c.module ||
      ((s.registered c).draft c.package).isResolved c.name ||
      (s.registered c).classes.contains c.key) = true ↔ s.Closes c := by
    unfold Draft.owns Draft.isResolved Store.Closes
    rw [hget, s.resolved_registered, (s.registered_marks c).1, Bool.or_eq_true,
      Bool.or_eq_true, List.contains_iff_mem, List.contains_iff_mem, or_assoc]
    exact or_congr_left (by simp)
  have hrun : resolveClass t expand c s =
      (if (!((s.registered c).draft c.package).owns c.name c.module ||
      ((s.registered c).draft c.package).isResolved c.name ||
      (s.registered c).classes.contains c.key) = true then
        pure (s.structOf c) else
        Resolve.withClass c.key do
          let fields ← collectFields t expand c
          Resolve.note (resolvedRecord c.key fields.length)
          Resolve.changeDraft c.package (·.complete c.name fields)
          return { s.structOf c with fields := fields } : Resolve Struct)
          (s.registered c) := by
    unfold resolveClass
    rw [run_bind, register_run]
    rfl
  constructor
  · intro hclosed
    rw [hrun, if_pos (hguard.mpr hclosed)]
    rfl
  · intro hopen
    rw [hrun, if_neg (fun hc => hopen (hguard.mp hc)), withClass_run, run_bind]
    rcases collectFields t expand c ((s.registered c).entering c.key)
      with ⟨e | fields, s'⟩ <;> rfl

/-- Where classes have names of their own, only their fields matter. -/
theorem closes_iff (hd : t.Distinct) (h : Housed t s) {c : ProgramClass}
    (hc : t.Declares c) : s.Closes c ↔ s.answers c := by
  have hresolved : c.name ∈ (s.draft c.package).resolved ↔
      s.done c.key ≠ none := by
    unfold Store.done
    constructor
    · intro hmem
      obtain ⟨st, hst⟩ := h.registered c.key hmem
      rw [if_pos (show c.key.name ∈ (s.draft c.key.package).resolved from hmem),
        hst]
      exact fun hn => by cases hn
    · intro hn
      by_contra hmem
      exact hn (if_neg hmem)
  unfold Store.Closes Store.answers
  rw [hresolved]
  exact or_iff_right fun hne => hne (h.structOf hd hc).2.2.1

theorem resolveClass_run (hd : t.Distinct) (h : Housed t s) (expand : Expansion)
    {c : ProgramClass} (hc : t.Declares c) :
    (s.answers c →
      resolveClass t expand c s = (.ok (s.structOf c), s.registered c)) ∧
    (¬s.answers c → resolveClass t expand c s =
      match collectFields t expand c ((s.registered c).entering c.key) with
      | (.ok fields, s') => (.ok { s.structOf c with fields := fields },
          s'.finishing c fields)
      | (.error e, s') => (.error e, s'.leaving c.key)) := by
  rw [← closes_iff hd h hc]
  exact resolveClass_steps expand c

theorem expandAlias_run (expand : Expansion) (site : Site) (scope : Scope)
    (name : String) (value : Expr) (s : Store) :
    expandAlias t expand site scope name value s =
      if isCall value = true ∨ scope.module ++ "." ++ name ∈ s.aliases then
        (.ok .any, s)
      else Resolve.withAlias (scope.module ++ "." ++ name)
        (annotationWith t expand { site with scope := scope } value) s := by
  have hguard :
      (isCall value || s.aliases.contains (scope.module ++ "." ++ name)) =
      true ↔ isCall value = true ∨ scope.module ++ "." ++ name ∈ s.aliases := by
    rw [Bool.or_eq_true, List.contains_iff_mem]
  have hrun : expandAlias t expand site scope name value s =
      (if (isCall value || s.aliases.contains (scope.module ++ "." ++ name)) =
        true then
        pure .any
      else Resolve.withAlias (scope.module ++ "." ++ name)
        (annotationWith t expand { site with scope := scope } value) :
        Resolve TypeRef) s := rfl
  rw [hrun]
  split
  · next hc =>
      rw [if_pos (hguard.mp hc)]
      rfl
  · next hc => rw [if_neg fun h => hc (hguard.mpr h)]

end Housed

end BridgeBindings
