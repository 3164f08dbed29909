import BridgeBindings.Proofs.Lineage
import BridgeBindings.Proofs.Naming
import BridgeBindings.Proofs.Reexports

/-!
# What the text of a type tells

A rendered type has no brackets around `T | null`, and still it can be read in
one way only: what a type is made of at the top shows in its text. A type
without parts has neither a blank nor an angle bracket, a pointer ends in a
letter where the others end in a bracket, and of the two that have a bracket the
first letter differs. So two texts that are alike have the same top, the parts
below it have texts that are alike again, and the whole comes by induction down
to the names. These say whether a package is in front of them, which is where
the names of packages have to stay apart.
-/

namespace BridgeBindings

open Render

/-! ## Characters of names -/

theorem Text.not_mem_of_isDottedIdentifier {s : String}
    (h : isDottedIdentifier s = true) {c : Char} (hdot : c ≠ '.')
    (hopens : opensIdentifier c = false)
    (hextends : extendsIdentifier c = false) : c ∉ s.toList := by
  intro hc
  obtain ⟨part, hpart, hmem⟩ := exists_part_of_mem hc hdot
  have hident :=
    List.all_eq_true.mp h (String.ofList part) (List.mem_map_of_mem hpart)
  exact not_mem_of_isIdentifier hident hopens hextends
    (by rwa [String.toList_ofList])

theorem mem_importName {package : String} {c : Char}
    (h : c ∈ (importName package).toList) :
    c ≠ '.' ∧ (c = '_' ∨ c ∈ package.toList) := by
  rw [importName, String.toList_ofList] at h
  obtain ⟨d, hd, rfl⟩ := List.mem_map.mp h
  split
  · exact ⟨by decide, .inl rfl⟩
  · next hne => exact ⟨hne, .inr hd⟩

/-! ## What of a type is visible -/

/-- The names that a rendered type has of its own. -/
def Render.ownTypes : List String := ["any", "number", "string", "boolean"]

namespace TypeRef

/-- What of a type can be seen from a package: numbers are one type, an external
type is any, and the key of a mapping is a number or not. -/
def visible (package : String) : TypeRef → TypeRef
  | .primitive .integer | .primitive .byte => .primitive .float
  | .primitive p => .primitive p
  | .struct key => .struct key
  | .external _ => .any
  | .pointer elem => .pointer (elem.visible package)
  | .sequence elem => .sequence (elem.visible package)
  | .mapping key elem =>
    .mapping (.primitive (if typeScript package key = "number" then .float
      else .string)) (elem.visible package)
  | .any => .any

/-- How pointers, sequences and mappings are nested in a type. -/
inductive Nesting where
  | leaf
  | pointer (elem : Nesting)
  | sequence (elem : Nesting)
  | mapping (elem : Nesting)
  deriving DecidableEq, Repr

/-- The nesting of a type. -/
def nesting : TypeRef → Nesting
  | .pointer elem => .pointer elem.nesting
  | .sequence elem => .sequence elem.nesting
  | .mapping _ elem => .mapping elem.nesting
  | .primitive _ | .struct _ | .external _ | .any => .leaf

theorem nesting_visible (package : String) (t : TypeRef) :
    (t.visible package).nesting = t.nesting := by
  induction t with
  | primitive p => cases p <;> rfl
  | struct key => rfl
  | external name => rfl
  | pointer elem ih => rw [visible, nesting, nesting, ih]
  | sequence elem ih => rw [visible, nesting, nesting, ih]
  | mapping key elem _ ih => rw [visible, nesting, nesting, ih]
  | any => rfl

/-- The text of a type depends on what of it is visible alone. -/
theorem typeScript_visible (package : String) (t : TypeRef) :
    typeScript package (t.visible package) = typeScript package t := by
  induction t with
  | primitive p => cases p <;> rfl
  | struct key => rfl
  | external name => rfl
  | pointer elem ih => rw [visible, typeScript, typeScript, ih]
  | sequence elem ih => rw [visible, typeScript, typeScript, ih]
  | mapping key elem _ ih =>
      by_cases hkey : typeScript package key = "number"
      · simp only [visible, typeScript, hkey, if_true, Render.primitive, ih]
      · simp only [visible, typeScript, hkey, if_false, Render.primitive, ih]
        rfl
  | any => rfl

end TypeRef

/-- Structs whose names stay apart in a text: they are identifiers that
no rendered type has of its own, and their packages are imported under
names that differ. -/
structure Render.Telling (ks : List StructKey) : Prop where
  name : ∀ k ∈ ks, Text.isIdentifier k.name = true
  own : ∀ k ∈ ks, k.name ∉ ownTypes
  package : ∀ k ∈ ks, Text.isDottedIdentifier k.package = true
  imports : ∀ k ∈ ks, ∀ l ∈ ks, importName k.package = importName l.package →
      k.package = l.package

theorem Render.Telling.mono {ks ls : List StructKey} (h : Telling ls)
    (hsub : ∀ k ∈ ks, k ∈ ls) : Telling ks where
  name k hk := h.name k (hsub k hk)
  own k hk := h.own k (hsub k hk)
  package k hk := h.package k (hsub k hk)
  imports k hk l hl := h.imports k (hsub k hk) l (hsub l hl)

/-! ## The top of a type -/

/-- What a type is at its top, with what is left of it when it has no parts. -/
inductive Render.Top where
  | own (type : TypeRef)
  | struct
  | pointer
  | sequence
  | mapping (number : Bool)
  deriving DecidableEq

namespace Render.Top

/-- The top of a type, as seen from a package. -/
def ofType (package : String) : TypeRef → Top
  | .primitive p => .own ((TypeRef.primitive p).visible package)
  | .external _ | .any => .own .any
  | .struct _ => .struct
  | .pointer _ => .pointer
  | .sequence _ => .sequence
  | .mapping key _ => .mapping (typeScript package key = "number")

/-- The top that a text tells. -/
def ofText (text : List Char) : Top :=
  if text = "any".toList then .own .any
  else if text = "number".toList then .own (.primitive .float)
  else if text = "string".toList then .own (.primitive .string)
  else if text = "boolean".toList then .own (.primitive .boolean)
  else if ' ' ∉ text ∧ '<' ∉ text then .struct
  else if text.getLast? = some 'l' then .pointer
  else if text.head? = some 'A' then .sequence
  else .mapping (text[7]? = some 'n')

end Render.Top

namespace Render.Top

variable {package : String} {t : TypeRef}

theorem visible_of_own {v : TypeRef} (h : ofType package t = .own v) :
    t.visible package = v := by
  cases t <;> cases h <;> rfl

theorem eq_struct (h : ofType package t = .struct) :
    ∃ key, t = .struct key := by
  cases t <;> cases h
  exact ⟨_, rfl⟩

theorem eq_pointer (h : ofType package t = .pointer) :
    ∃ elem, t = .pointer elem := by
  cases t <;> cases h
  exact ⟨_, rfl⟩

theorem eq_sequence (h : ofType package t = .sequence) :
    ∃ elem, t = .sequence elem := by
  cases t <;> cases h
  exact ⟨_, rfl⟩

theorem eq_mapping {number : Bool} (h : ofType package t = .mapping number) :
    ∃ key elem, t = .mapping key elem ∧
    decide (typeScript package key = "number") = number := by
  cases t <;> cases h
  exact ⟨_, _, rfl, rfl⟩

end Render.Top

/-- A name has no blank and no angle bracket, with its package in front of
it or without. -/
theorem Render.Telling.leaf {package : String} {key : StructKey}
    (h : Telling [key]) : ' ' ∉ (typeScript package (.struct key)).toList ∧
      '<' ∉ (typeScript package (.struct key)).toList := by
  have hname := h.name key (List.mem_singleton.mpr rfl)
  have hpackage := h.package key (List.mem_singleton.mpr rfl)
  have habsent {c : Char} (hdot : c ≠ '.') (hbar : c ≠ '_')
      (hopens : Text.opensIdentifier c = false)
      (hextends : Text.extendsIdentifier c = false) :
      c ∉ (typeScript package (.struct key)).toList := by
    intro hc
    have hmissing := Text.not_mem_of_isIdentifier hname hopens hextends
    rw [typeScript] at hc
    split at hc
    · exact hmissing hc
    · rw [String.toList_append, String.toList_append] at hc
      rcases List.mem_append.mp hc with hc | hc
      · rcases List.mem_append.mp hc with hc | hc
        · rcases (mem_importName hc).2 with rfl | hc
          · exact hbar rfl
          · exact Text.not_mem_of_isDottedIdentifier hpackage hdot
              hopens hextends hc
        · exact hdot (List.mem_singleton.mp hc)
      · exact hmissing hc
  exact ⟨habsent (by decide) (by decide) (by decide) (by decide),
    habsent (by decide) (by decide) (by decide) (by decide)⟩

/-- No struct is shown like a type that has a name of its own. -/
theorem Render.Telling.not_own {package : String} {key : StructKey}
    (h : Telling [key]) : typeScript package (.struct key) ∉ ownTypes := by
  rw [typeScript]
  split
  · exact h.own key (List.mem_singleton.mpr rfl)
  · intro hown
    have hdot : '.' ∈ (importName key.package ++ "." ++ key.name).toList := by
      rw [String.toList_append, String.toList_append]
      exact List.mem_append_left _
        (List.mem_append_right _ (List.mem_singleton.mpr rfl))
    have hundotted : ∀ own ∈ ownTypes, '.' ∉ own.toList := by decide
    exact hundotted _ hown hdot

theorem Render.Top.ofText_of_not_own {text : String} (h : text ∉ ownTypes) :
    Top.ofText text.toList =
      if ' ' ∉ text.toList ∧ '<' ∉ text.toList then .struct
      else if text.toList.getLast? = some 'l' then .pointer
      else if text.toList.head? = some 'A' then .sequence
      else .mapping (text.toList[7]? = some 'n') := by
  simp only [ownTypes, List.mem_cons, List.not_mem_nil, or_false, not_or] at h
  obtain ⟨hany, hnumber, hstring, hboolean⟩ := h
  unfold ofText
  rw [if_neg (mt String.toList_inj.mp hany),
    if_neg (mt String.toList_inj.mp hnumber),
    if_neg (mt String.toList_inj.mp hstring),
    if_neg (mt String.toList_inj.mp hboolean)]

theorem Render.Top.ofText_typeScript (package : String) (t : TypeRef)
    (h : Telling t.structRefs) : Top.ofText (typeScript package t).toList =
    Top.ofType package t := by
  have hmarked {text : String} (hc : ' ' ∈ text.toList ∨ '<' ∈ text.toList) :
      text ∉ ownTypes := by
    have hown : ∀ own ∈ ownTypes,
        ¬(' ' ∈ own.toList ∨ '<' ∈ own.toList) := by decide
    exact fun hmem => hown text hmem hc
  -- the tests are made in the order of the reader: the own names first, then
  -- whether there are blanks or brackets, then the last character
  cases t with
  | primitive p =>
      cases p <;>
        (show ofText (Render.primitive _).toList = .own (.primitive _)) <;>
        decide
  | external name =>
      show ofText "any".toList = .own .any
      decide
  | any =>
      show ofText "any".toList = .own .any
      decide
  | struct key =>
      rw [ofText_of_not_own h.not_own, if_pos h.leaf]
      rfl
  | pointer elem =>
      have hblank : ' ' ∈ (typeScript package (.pointer elem)).toList := by
        simp [typeScript]
      rw [ofText_of_not_own (hmarked (.inl hblank)),
        if_neg fun hno => hno.1 hblank, if_pos (by simp [typeScript])]
      rfl
  | sequence elem =>
      have hbracket : '<' ∈ (typeScript package (.sequence elem)).toList := by
        simp [typeScript]
      have hlast :
          (typeScript package (.sequence elem)).toList.getLast? = some '>' := by
        rw [typeScript, String.toList_append, List.getLast?_append]
        rfl
      rw [ofText_of_not_own (hmarked (.inr hbracket)), if_neg fun hno =>
        hno.2 hbracket, if_neg (by rw [hlast]; decide),
          if_pos (by simp [typeScript])]
      rfl
  | mapping key elem =>
      have hbracket :
          '<' ∈ (typeScript package (.mapping key elem)).toList := by
        simp [typeScript]
      have hlast :
          (typeScript package (.mapping key elem)).toList.getLast? =
          some '>' := by
        rw [typeScript, String.toList_append, List.getLast?_append]
        rfl
      rw [ofText_of_not_own (hmarked (.inr hbracket)), if_neg fun hno =>
        hno.2 hbracket, if_neg (by rw [hlast]; decide),
          if_neg (by simp [typeScript])]
      by_cases hkey : typeScript package key = "number"
      · simp [typeScript, ofType, hkey]
      · simp [typeScript, ofType, hkey]

/-! ## Two texts -/

/-- Two structs are shown alike only if they are the same. -/
theorem Render.Telling.struct_inj {package : String} {k l : StructKey}
    (h : Telling [k, l])
    (heq : typeScript package (.struct k) = typeScript package (.struct l)) :
    k = l := by
  have hk : k ∈ [k, l] := List.mem_cons_self
  have hl : l ∈ [k, l] := List.mem_cons_of_mem _ (List.mem_singleton.mpr rfl)
  have hundotted {x : StructKey} (hx : x ∈ [k, l]) : '.' ∉ x.name.toList :=
    Text.undotted_of_isIdentifier (h.name x hx)
  have hforeign (x : StructKey) :
      '.' ∈ (importName x.package ++ "." ++ x.name).toList := by
    rw [String.toList_append, String.toList_append]
    exact List.mem_append_left _
      (List.mem_append_right _ (List.mem_singleton.mpr rfl))
  have hkey (hpackage : k.package = l.package) (hname : k.name = l.name) :
      k = l := by
    cases k; cases l
    simp_all
  rw [typeScript, typeScript] at heq
  split at heq
  · next hk' =>
      split at heq
      · next hl' => exact hkey (hk'.trans hl'.symm) heq
      · exact absurd (heq ▸ hforeign l) (hundotted hk)
  · split at heq
    · exact absurd (heq ▸ hforeign k) (hundotted hl)
    · obtain ⟨himport, hname⟩ :=
        split_last_dot (hundotted hk) (hundotted hl) heq
      exact hkey (h.imports k hk l hl himport) hname

/-- Types with one text have the same top. -/
theorem Render.Top.eq_of_typeScript {package : String} {a b : TypeRef}
    (h : Telling (a.structRefs ++ b.structRefs))
    (heq : typeScript package a = typeScript package b) :
    Top.ofType package a = Top.ofType package b := by
  rw [← ofText_typeScript package a (h.mono fun _ => List.mem_append_left _),
    ← ofText_typeScript package b (h.mono fun _ => List.mem_append_right _),
    heq]

/-- Types with one text have the same top, and below it, by induction, the same
parts as far as these are visible. -/
theorem visible_of_typeScript {package : String} {a b : TypeRef}
    (h : Telling (a.structRefs ++ b.structRefs))
    (heq : typeScript package a = typeScript package b) :
    a.visible package = b.visible package := by
  have htop := (Top.eq_of_typeScript h heq).symm
  -- the tops agree, so the second type is of the same kind, and what both add
  -- to the texts of their parts can be taken off
  induction a generalizing b with
  | primitive p => exact (Top.visible_of_own htop).symm
  | external name => exact (Top.visible_of_own htop).symm
  | any => exact (Top.visible_of_own htop).symm
  | struct key =>
      obtain ⟨key', rfl⟩ := Top.eq_struct htop
      rw [h.struct_inj heq]
  | pointer elem ih =>
      obtain ⟨elem', rfl⟩ := Top.eq_pointer htop
      have helem : Telling (elem.structRefs ++ elem'.structRefs) := h
      have heq' := (String.append_left_inj " | null").mp heq
      rw [TypeRef.visible, TypeRef.visible,
        ih helem heq' (Top.eq_of_typeScript helem heq').symm]
  | sequence elem ih =>
      obtain ⟨elem', rfl⟩ := Top.eq_sequence htop
      have helem : Telling (elem.structRefs ++ elem'.structRefs) := h
      have heq' :=
        (String.append_right_inj "Array<").mp
          ((String.append_left_inj ">").mp heq)
      rw [TypeRef.visible, TypeRef.visible,
        ih helem heq' (Top.eq_of_typeScript helem heq').symm]
  | mapping key elem _ ih =>
      obtain ⟨key', elem', rfl, hnumber⟩ := Top.eq_mapping htop
      have hkey : (typeScript package key' = "number") =
          (typeScript package key = "number") :=
        propext (decide_eq_decide.mp hnumber)
      have heq' : typeScript package elem = typeScript package elem' := by
        rw [typeScript, typeScript] at heq
        simp only [hkey] at heq
        exact (String.append_right_inj _).mp
          ((String.append_left_inj ">").mp heq)
      have helem : Telling (elem.structRefs ++ elem'.structRefs) :=
        h.mono fun k hk =>
        (List.mem_append.mp hk).elim
          (fun hk => List.mem_append_left _ (List.mem_append_right _ hk))
          fun hk => List.mem_append_right _ (List.mem_append_right _ hk)
      rw [TypeRef.visible, TypeRef.visible,
        ih helem heq' (Top.eq_of_typeScript helem heq').symm]
      simp only [hkey]

/-- Two types have one text exactly if nothing tells them apart that is visible.
However pointers, sequences and mappings are nested, the text tells. -/
theorem typeScript_eq_iff {package : String} {a b : TypeRef}
    (h : Telling (a.structRefs ++ b.structRefs)) :
    (typeScript package a = typeScript package b ↔
      a.visible package = b.visible package) ∧
      (a.nesting ≠ b.nesting →
        typeScript package a ≠ typeScript package b) := by
  have hvisible : typeScript package a = typeScript package b →
      a.visible package = b.visible package :=
    visible_of_typeScript h
  refine ⟨⟨hvisible, fun heq => ?_⟩, fun hne heq => hne ?_⟩
  · rw [← a.typeScript_visible package, heq, b.typeScript_visible package]
  · rw [← a.nesting_visible package, hvisible heq, b.nesting_visible package]

namespace Sample

/-- A mapping from numbers to orders of another package that may be missing. -/
def orderTable (number : Primitive) : TypeRef :=
  .sequence (.mapping (.primitive number)
    (.pointer (.struct ⟨"shop.cart", "Order"⟩)))

def ownOrder : TypeRef := .pointer (.sequence (.struct ⟨"main", "Order"⟩))

theorem orders_telling :
    Telling ((orderTable .byte).structRefs ++ ownOrder.structRefs) where
  name := by decide
  own := by decide
  package := by decide
  imports := by decide

/-- A table of orders and an optional list of them: neither texts nor
nestings agree. -/
theorem orders_apart :
    Telling ((orderTable .byte).structRefs ++ ownOrder.structRefs) ∧
      (typeScript "main" (orderTable .byte) = typeScript "main" ownOrder ↔
        (orderTable .byte).visible "main" = ownOrder.visible "main") ∧
      ((orderTable .byte).nesting ≠ ownOrder.nesting →
        typeScript "main" (orderTable .byte) ≠ typeScript "main" ownOrder) :=
  ⟨orders_telling, typeScript_eq_iff orders_telling⟩

end Sample

end BridgeBindings
