import BridgeBindings.Proofs.Steps
import BridgeBindings.Proofs.Tables

/-!
# What a resolution leaves in place

A resolution only adds to the drafts. What was registered stays registered for
the module that it was registered for, what was resolved stays resolved, and the
packages that have been referred to stay so; bound methods and the structs in
use are none of its business.
-/

namespace BridgeBindings

namespace Draft

/-- What a resolution leaves in place of a draft. -/
structure Grows (a b : Draft) : Prop where
  name : b.name = a.name
  structs : ∀ n st, a.get? n = some st →
    ∃ st', b.get? n = some st' ∧ st'.module = st.module ∧
    st'.comments = st.comments
  resolved : ∀ n ∈ a.resolved, n ∈ b.resolved
  references : ∀ q ∈ a.references, q ∈ b.references
  methods : b.methods = a.methods
  used : b.usedAsData = a.usedAsData
  once : a.structs.keys.Nodup → b.structs.keys.Nodup

namespace Grows

theorem refl (d : Draft) : d.Grows d where
  name := rfl
  structs _ st h := ⟨st, h, rfl, rfl⟩
  resolved _ h := h
  references _ h := h
  methods := rfl
  used := rfl
  once h := h

theorem trans {a b c : Draft} (h : a.Grows b) (h' : b.Grows c) : a.Grows c where
  name := h'.name.trans h.name
  structs n st hn := by
    obtain ⟨st', hn', hm, hc⟩ := h.structs n st hn
    obtain ⟨st'', hn'', hm', hc'⟩ := h'.structs n st' hn'
    exact ⟨st'', hn'', hm'.trans hm, hc'.trans hc⟩
  resolved n hn := h'.resolved n (h.resolved n hn)
  references q hq := h'.references q (h.references q hq)
  methods := h'.methods.trans h.methods
  used := h'.used.trans h.used
  once hd := h'.once (h.once hd)

end Grows

/-! ## The changes of a draft -/

theorem get?_register (d : Draft) (name module : String)
    (comments : List CodeText) (n : String) :
    (d.register name module comments).get? n =
      if n = name then
        some ((d.get? name).getD (d.placeholder name module comments))
      else d.get? n :=
  Table.get?_insertNew d.structs name n _

theorem grows_register (d : Draft) (name module : String)
    (comments : List CodeText) : d.Grows (d.register name module comments) where
  name := rfl
  structs n st hn := by
    rw [get?_register]
    split
    · next he =>
        rw [he] at hn
        exact ⟨st, by rw [hn, Option.getD_some], rfl, rfl⟩
    · exact ⟨st, hn, rfl, rfl⟩
  resolved _ h := h
  references _ h := h
  methods := rfl
  used := rfl
  once h := Table.nodup_insertNew h _ _

theorem get?_complete (d : Draft) (name : String) (fields : List StructField)
    (n : String) : (d.complete name fields).get? n =
      if n = name then (d.get? name).map ({ · with fields := fields })
        else d.get? n := by
  unfold complete
  cases h : d.get? name with
  | none =>
      dsimp only
      split
      · next he =>
          rw [he, h]
          rfl
      · rfl
  | some st =>
      dsimp only
      exact Table.get?_insert d.structs name n _

theorem grows_complete (d : Draft) (name : String) (fields : List StructField) :
    d.Grows (d.complete name fields) where
  name := by unfold complete; split <;> rfl
  structs n st hn := by
    rw [get?_complete]
    split
    · next he =>
        rw [he] at hn
        exact ⟨{ st with fields := fields }, by rw [hn]; rfl, rfl, rfl⟩
    · exact ⟨st, hn, rfl, rfl⟩
  resolved n hn := by
    unfold complete
    split
    · exact List.mem_cons_of_mem _ hn
    · exact hn
  references q hq := by unfold complete; split <;> exact hq
  methods := by unfold complete; split <;> rfl
  used := by unfold complete; split <;> rfl
  once h := by
    unfold complete
    split
    · exact Table.nodup_insert h _ _
    · exact h

theorem grows_addReference (d : Draft) (package : String) :
    d.Grows (d.addReference package) := by
  unfold addReference
  split
  · exact Grows.refl d
  · exact {
      name := rfl
      structs := fun _ st h => ⟨st, h, rfl, rfl⟩
      resolved := fun _ h => h
      references := fun _ h => List.mem_cons_of_mem _ h
      methods := rfl
      used := rfl
      once := fun h => h }

theorem get?_addReference (d : Draft) (package n : String) :
    (d.addReference package).get? n = d.get? n := by
  unfold addReference
  split <;> rfl

theorem resolved_addReference (d : Draft) (package : String) :
    (d.addReference package).resolved = d.resolved := by
  unfold addReference
  split <;> rfl

theorem mem_addReference (d : Draft) {package : String} (h : package ≠ d.name) :
    package ∈ (d.addReference package).references := by
  unfold addReference
  rw [if_neg h]
  exact List.mem_cons_self

theorem grows_addUnresolved (d : Draft) (name : String) :
    d.Grows (d.addUnresolved name) where
  name := rfl
  structs _ st h := ⟨st, h, rfl, rfl⟩
  resolved _ h := h
  references _ h := h
  methods := rfl
  used := rfl
  once h := h

end Draft

/-! ## Stores -/

namespace Store

theorem draft_setDraft (s : Store) (p q : String) (d : Draft) :
    (s.setDraft p d).draft q = if q = p then d else s.draft q := by
  unfold draft setDraft
  rw [Table.get?_insert]
  split
  · rfl
  · rfl

theorem get?_setDraft (s : Store) (p : String) (d : Draft) (k : StructKey) :
    (s.setDraft p d).get? k = if k.package = p then d.get? k.name
      else s.get? k := by
  unfold get?
  rw [draft_setDraft]
  split <;> rfl

theorem draft_registered (s : Store) (c : ProgramClass) (q : String) :
    (s.registered c).draft q = if q = c.package then
      (s.draft c.package).register c.name c.module c.doc else s.draft q := by
  unfold draft
  rw [registered_drafts, Table.get?_insert]
  split
  · rfl
  · rfl

/-- All drafts have grown, if at all. -/
def Adds (a b : Store) : Prop := ∀ p, (a.draft p).Grows (b.draft p)

theorem adds_of_drafts {a b : Store} (h : b.drafts = a.drafts) : a.Adds b := by
  intro p
  have hsame : b.draft p = a.draft p := by
    unfold draft
    rw [h]
  rw [hsame]
  exact Draft.Grows.refl _

/-- What a resolution leaves in place of a store; its marks are taken back. -/
structure Grows (a b : Store) : Prop where
  classes : b.classes = a.classes
  aliases : b.aliases = a.aliases
  drafts : a.Adds b

namespace Grows

theorem refl (s : Store) : s.Grows s := ⟨rfl, rfl, fun _ => Draft.Grows.refl _⟩

theorem trans {a b c : Store} (h : a.Grows b) (h' : b.Grows c) : a.Grows c :=
  ⟨h'.classes.trans h.classes, h'.aliases.trans h.aliases,
    fun p => (h.drafts p).trans (h'.drafts p)⟩

theorem setDraft {s : Store} {p : String} {d : Draft}
    (h : (s.draft p).Grows d) : s.Grows (s.setDraft p d) := by
  refine ⟨rfl, rfl, fun q => ?_⟩
  rw [draft_setDraft]
  split
  · next hq =>
      rw [hq]
      exact h
  · exact Draft.Grows.refl _

theorem registered (s : Store) (c : ProgramClass) :
    s.Grows (s.registered c) := by
  refine ⟨(s.registered_marks c).1, (s.registered_marks c).2, fun q => ?_⟩
  rw [draft_registered]
  split
  · next hq =>
      rw [hq]
      exact Draft.grows_register _ _ _ _
  · exact Draft.Grows.refl _

theorem leaving {s s' : Store} {key : StructKey}
    (h : (s.entering key).Grows s') : s.Grows (s'.leaving key) := by
  refine ⟨?_, h.aliases, h.drafts⟩
  show s'.classes.erase key = s.classes
  rw [h.classes]
  exact List.erase_cons_head ..

theorem expanded {s s' : Store} {name : String}
    (h : (s.expanding name).Grows s') : s.Grows (s'.expanded name) := by
  refine ⟨h.classes, ?_, h.drafts⟩
  show s'.aliases.erase name = s.aliases
  rw [h.aliases]
  exact List.erase_cons_head ..

end Grows

end Store

end BridgeBindings
