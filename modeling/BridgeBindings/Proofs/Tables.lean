import BridgeBindings.Table
import Mathlib.Data.List.Nodup

/-!
# What tables hold

Looking a name up after a change, and what a table that was made from a list has
under a name: an entry of that list.
-/

namespace BridgeBindings

namespace Table

variable {α : Type}

theorem find_mem {key : String} {es : List (String × α)} {a : α}
    (h : find key es = some a) : (key, a) ∈ es := by
  induction es with
  | nil => cases h
  | cons e es ih =>
      rw [find] at h
      split at h
      · next hk =>
          cases h
          rw [← hk]
          exact List.mem_cons_self
      · exact List.mem_cons_of_mem _ (ih h)

theorem find_isSome {key : String} {a : α} {es : List (String × α)}
    (h : (key, a) ∈ es) : (find key es).isSome := by
  induction es with
  | nil => exact absurd h List.not_mem_nil
  | cons e es ih =>
      rw [find]
      split
      · rfl
      · next hk =>
          rcases List.mem_cons.mp h with rfl | h
          · exact absurd rfl hk
          · exact ih h

theorem mem_put {key : String} {a : α} {es : List (String × α)} {e : String × α}
    (h : e ∈ put key a es) : e = (key, a) ∨ e ∈ es := by
  induction es with
  | nil => exact .inl (List.mem_singleton.mp h)
  | cons e' es ih =>
      rw [put] at h
      split at h
      · next hk =>
          rcases List.mem_cons.mp h with rfl | h
          · exact .inl (by rw [hk])
          · exact .inr (List.mem_cons_of_mem _ h)
      · rcases List.mem_cons.mp h with rfl | h
        · exact .inr List.mem_cons_self
        · exact (ih h).imp_right (List.mem_cons_of_mem _)

theorem get?_mem {t : Table α} {key : String} {a : α}
    (h : t.get? key = some a) : (key, a) ∈ t.entries := find_mem h

theorem mem_keys_of_get? {t : Table α} {key : String} {a : α}
    (h : t.get? key = some a) :
    key ∈ t.keys := List.mem_map.mpr ⟨(key, a), get?_mem h, rfl⟩

theorem mem_values_of_get? {t : Table α} {key : String} {a : α}
    (h : t.get? key = some a) :
    a ∈ t.values := List.mem_map.mpr ⟨(key, a), get?_mem h, rfl⟩

theorem get?_insert (t : Table α) (key other : String) (a : α) :
    (t.insert key a).get? other = if other = key then some a
      else t.get? other := by
  split
  · next h => rw [h, get?_insert_self]
  · next h => exact get?_insert_of_ne h t a

theorem contains_iff {t : Table α} {key : String} :
    t.contains key = true ↔ ∃ a, t.get? key = some a := Option.isSome_iff_exists

theorem mem_keys_iff {t : Table α} {key : String} :
    key ∈ t.keys ↔ t.contains key = true := by
  constructor
  · intro h
    obtain ⟨⟨_, a⟩, ha, rfl⟩ := List.mem_map.mp h
    exact find_isSome ha
  · intro h
    obtain ⟨a, ha⟩ := contains_iff.mp h
    exact mem_keys_of_get? ha

theorem get?_insertNew (t : Table α) (key other : String) (a : α) :
    (t.insertNew key a).get? other =
      if other = key then some ((t.get? key).getD a) else t.get? other := by
  unfold insertNew
  cases hc : t.get? key with
  | some b =>
      rw [if_pos (contains_iff.mpr ⟨b, hc⟩), Option.getD_some]
      split
      · next h => rw [h, hc]
      · rfl
  | none =>
      have hfree : ¬t.contains key = true := by simp [contains, hc]
      rw [if_neg hfree, Option.getD_none]
      exact get?_insert t key other a

theorem mem_insert {t : Table α} {key : String} {a : α} {e : String × α}
    (h : e ∈ (t.insert key a).entries) :
    e = (key, a) ∨ e ∈ t.entries := mem_put h

theorem mem_values_insert {t : Table α} {key : String} {a b : α}
    (h : b ∈ (t.insert key a).values) : b = a ∨ b ∈ t.values := by
  obtain ⟨e, he, rfl⟩ := List.mem_map.mp h
  rcases mem_insert he with rfl | he
  · exact .inl rfl
  · exact .inr (List.mem_map_of_mem he)

theorem mem_ofList {es : List (String × α)} {e : String × α}
    (h : e ∈ (ofList es).entries) : e ∈ es := by
  refine List.foldlRecOn
    (motive := fun (t : Table α) => ∀ e ∈ t.entries, e ∈ es) es _
    (fun e he => absurd he List.not_mem_nil) (fun t ht x hx e he => ?_) e h
  rcases mem_insert he with rfl | he
  · exact hx
  · exact ht e he

theorem get?_ofList_mem {es : List (String × α)} {key : String} {a : α}
    (h : (ofList es).get? key = some a) :
    (key, a) ∈ es := mem_ofList (get?_mem h)

/-! ## Each name once -/

theorem put_keys (key : String) (a : α) (es : List (String × α)) :
    (put key a es).map (·.1) =
      if key ∈ es.map (·.1) then es.map (·.1) else es.map (·.1) ++ [key] := by
  induction es with
  | nil => rfl
  | cons e es ih =>
      rw [put]
      split
      · next hk => simp [hk]
      · next hk =>
          have hne : key ≠ e.1 := fun h => hk h.symm
          simp only [List.map_cons, ih, List.mem_cons, hne, false_or]
          split <;> rfl

theorem nodup_insert {t : Table α} (h : t.keys.Nodup) (key : String) (a : α) :
    (t.insert key a).keys.Nodup := by
  show ((put key a t.entries).map (·.1)).Nodup
  rw [put_keys]
  split
  · exact h
  · next hk =>
      refine List.nodup_append.mpr ⟨h, List.nodup_singleton key, ?_⟩
      rintro x hx y hy rfl
      rw [List.mem_singleton.mp hy] at hx
      exact hk hx

theorem nodup_insertNew {t : Table α} (h : t.keys.Nodup)
    (key : String) (a : α) : (t.insertNew key a).keys.Nodup := by
  unfold insertNew
  split
  · exact h
  · exact nodup_insert h key a

theorem nodup_ofList (es : List (String × α)) : (ofList es).keys.Nodup :=
  List.foldlRecOn (motive := fun (t : Table α) => t.keys.Nodup) es
    _ List.nodup_nil fun _ ht e _ => nodup_insert ht e.1 e.2

theorem nodup_empty : (empty : Table α).keys.Nodup := List.nodup_nil

theorem get?_of_mem {t : Table α} (h : t.keys.Nodup) {key : String} {a : α}
    (hm : (key, a) ∈ t.entries) : t.get? key = some a := by
  obtain ⟨es⟩ := t
  change (es.map (·.1)).Nodup at h
  change find key es = some a
  induction es with
  | nil => exact absurd hm List.not_mem_nil
  | cons e es ih =>
      rw [List.map_cons, List.nodup_cons] at h
      rcases List.mem_cons.mp hm with rfl | hm
      · rw [find, if_pos rfl]
      · have hne : e.1 ≠ key :=
          fun he => h.1 (List.mem_map.mpr ⟨(key, a), hm, he.symm⟩)
        rw [find, if_neg hne]
        exact ih hm h.2

theorem get?_of_mem_values {t : Table α} (h : t.keys.Nodup) {a : α}
    (hm : a ∈ t.values) : ∃ key, t.get? key = some a := by
  obtain ⟨⟨key, b⟩, he, rfl⟩ := List.mem_map.mp hm
  exact ⟨key, get?_of_mem h he⟩

/-! ## Tables of images -/

section Map

variable {β : Type} (f : α → β)

theorem find_map (key : String) (es : List (String × α)) :
    find key (es.map fun (k, v) => (k, f v)) = (find key es).map f := by
  induction es with
  | nil => rfl
  | cons e es ih =>
      rw [List.map_cons, find, find]
      split
      · rfl
      · exact ih

theorem put_map (key : String) (a : α) (es : List (String × α)) :
    put key (f a) (es.map fun (k, v) => (k, f v)) =
      (put key a es).map fun (k, v) => (k, f v) := by
  induction es with
  | nil => rfl
  | cons e es ih =>
      rw [List.map_cons, put, put, ih]
      split <;> rfl

theorem map_insert (t : Table α) (key : String) (a : α) :
    (t.insert key a).map f = (t.map f).insert key (f a) :=
  congrArg Table.mk (put_map f key a t.entries).symm

theorem map_insertNew (t : Table α) (key : String) (a : α) :
    (t.insertNew key a).map f = (t.map f).insertNew key (f a) := by
  have hcontains : (t.map f).contains key = t.contains key := by
    unfold contains get? map
    rw [find_map, Option.isSome_map]
  unfold insertNew
  rw [hcontains]
  split
  · rfl
  · exact map_insert f t key a

theorem values_map (t : Table α) : (t.map f).values = t.values.map f := by
  unfold values map
  rw [List.map_map, List.map_map]
  rfl

end Map

end Table

/-! ## Sorting by a name -/

section Sorting

variable {α : Type} (name : α → String)

theorem names_trans (a b c : α) (h : decide (name a ≤ name b) = true)
    (h' : decide (name b ≤ name c) = true) : decide (name a ≤ name c) = true :=
  decide_eq_true (String.le_trans (of_decide_eq_true h) (of_decide_eq_true h'))

theorem names_total (a b : α) :
    (decide (name a ≤ name b) || decide (name b ≤ name a)) = true := by
  rcases String.le_total (name a) (name b) with h | h <;> simp [h]

theorem sortNames_sorted (names : List String) :
    (sortNames names).Pairwise (· ≤ ·) :=
  (List.pairwise_mergeSort (names_trans id) (names_total id) names).imp
    of_decide_eq_true

end Sorting

end BridgeBindings
