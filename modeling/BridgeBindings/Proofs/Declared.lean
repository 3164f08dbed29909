import BridgeBindings.Hierarchy
import BridgeBindings.Proofs.Tables

/-!
# What names stand for

Whatever a name stands for in a scope of a program is declared in a scope of
that program, under its own name. So the classes and aliases that a resolution
can get to are finitely many, and each is known by a key.
-/

namespace BridgeBindings

open Syntax

namespace Symbols

/-- A scope of the program, found under its own module. -/
def Has (t : Symbols) (scope : Scope) : Prop :=
  t.scope? scope.module = some scope

/-- A class that the program declares, found under its own name. -/
structure Declares (t : Symbols) (c : ProgramClass) : Prop where
  inTree : t.Has c.scope
  decl : c.scope.classes.get? c.name = some c.decl

/-- An alias that the program declares, found under its own name. -/
structure DeclaresAlias (t : Symbols) (scope : Scope) (name : String)
    (value : Expr) : Prop where
  inTree : t.Has scope
  decl : scope.aliases.get? name = some value

/-- What a name of the program stands for is part of the program. -/
def Owns (t : Symbols) : Symbol → Prop
  | .cls c => t.Declares c
  | .function scope _ => t.Has scope
  | .alias scope name value => t.DeclaresAlias scope name value
  | .module scope => t.Has scope
  | .external _ => True

/-- Scopes are kept under their modules and classes under their
names, each once. -/
structure Keyed (t : Symbols) : Prop where
  scope : ∀ module scope, t.scope? module = some scope → t.Has scope
  cls : ∀ module scope name decl, t.scope? module = some scope →
    scope.classes.get? name = some decl → decl.name = name
  scopesOnce : t.scopes.keys.Nodup
  classesOnce : ∀ module scope, t.scope? module = some scope →
      scope.classes.keys.Nodup

/-- Every scope of a program is that of one of its files. -/
theorem source_of_scope {p : Program} {module : String} {scope : Scope}
    (h : (ofProgram p).scope? module = some scope) :
    ∃ s ∈ p.files, module = s.module ∧ scope = Scope.ofSource s := by
  obtain ⟨s, hmem, hs⟩ := List.mem_map.mp (Table.get?_ofList_mem h)
  cases hs
  exact ⟨s, hmem, rfl, rfl⟩

theorem keyed_ofProgram (p : Program) : (ofProgram p).Keyed := by
  constructor
  · intro module scope h
    obtain ⟨s, -, rfl, rfl⟩ := source_of_scope h
    exact h
  · intro module scope name decl h hdecl
    obtain ⟨s, -, rfl, rfl⟩ := source_of_scope h
    obtain ⟨stmt, _, hstmt⟩ :=
      List.mem_filterMap.mp (Table.get?_ofList_mem hdecl)
    unfold Scope.classOf? at hstmt
    split at hstmt <;> cases hstmt
    rfl
  · exact Table.nodup_ofList _
  · intro module scope h
    obtain ⟨s, -, rfl, rfl⟩ := source_of_scope h
    exact Table.nodup_ofList _

/-! ## Looking up -/

section Lookup

variable {t : Symbols} (hk : t.Keyed)

include hk

theorem owns_declared {scope : Scope} {name : String} {symbol : Symbol}
    (hs : t.Has scope) (h : scope.declared? name = some symbol) :
    t.Owns symbol := by
  unfold Scope.declared? at h
  split at h
  · next c hc =>
      cases h
      have hname := hk.cls _ _ _ _ hs hc
      exact ⟨hs, by rw [ProgramClass.name, hname]; exact hc⟩
  · split at h
    · cases h
      exact hs
    · obtain ⟨value, hvalue, rfl⟩ := Option.map_eq_some_iff.mp h
      exact ⟨hs, hvalue⟩

theorem owns_module {module : String} {symbol : Symbol}
    (h : (t.scope? module).map Symbol.module = some symbol) :
    t.Owns symbol := by
  obtain ⟨scope, hscope, rfl⟩ := Option.map_eq_some_iff.mp h
  exact hk.scope _ _ hscope

theorem has_longestModule {parts rest : List String} {scope : Scope} {n : Nat}
    (h : t.longestModule parts n = some (scope, rest)) : t.Has scope := by
  induction n with
  | zero => cases h
  | succ n ih =>
      rw [longestModule] at h
      split at h
      · next hscope =>
          cases h
          exact hk.scope _ _ hscope
      · exact ih h

theorem owns_lookupStep {follow : Option (String → Option Symbol)}
    {qualifiedName : String} {symbol : Symbol}
    (hfollow : ∀ f, follow = some f →
      ∀ name symbol, f name = some symbol → t.Owns symbol)
    (h : t.lookupStep follow qualifiedName = some symbol) : t.Owns symbol := by
  unfold lookupStep at h
  dsimp only at h
  split at h
  · next scope hm =>
      cases h
      exact has_longestModule hk hm
  · next scope name hm =>
      have hs := has_longestModule hk hm
      unfold member at h
      split at h
      · next hdeclared =>
          cases h
          exact owns_declared hk hs hdeclared
      · split at h
        · next f _ => exact hfollow f rfl _ _ h
        · exact owns_module hk h
  · cases h
  · split at h
    · cases h
    · cases h
      trivial

theorem owns_lookupWithin {reexports : Nat} {qualifiedName : String}
    {symbol : Symbol}
    (h : t.lookupWithin reexports qualifiedName = some symbol) :
    t.Owns symbol := by
  induction reexports generalizing qualifiedName symbol with
  | zero => exact owns_lookupStep hk (fun f hf => by cases hf) h
  | succ n ih =>
      refine owns_lookupStep hk (fun f hf name symbol hname => ?_) h
      cases hf
      exact ih hname

theorem owns_lookup {scope : Scope} {dotted : String} {symbol : Symbol}
    (hs : t.Has scope) (h : t.lookup scope dotted = some symbol) :
    t.Owns symbol := by
  unfold lookup at h
  dsimp only at h
  split at h
  · next hdeclared =>
      split at h
      · cases h
        exact owns_declared hk hs hdeclared
      · cases h
  · split at h
    · exact owns_lookupWithin hk h
    · cases h

theorem declares_lookupClass {scope : Scope} {dotted : String}
    {c : ProgramClass} (hs : t.Has scope)
    (h : t.lookupClass scope dotted = some c) : t.Declares c := by
  unfold lookupClass at h
  split at h
  · next c' hc =>
      cases h
      exact owns_lookup hk hs hc
  · cases h

theorem declares_bases {c b : ProgramClass} (hc : t.Declares c)
    (hb : b ∈ t.bases c) : t.Declares b := by
  obtain ⟨e, _, he⟩ := List.mem_filterMap.mp hb
  obtain ⟨dotted, _, hd⟩ := Option.bind_eq_some_iff.mp he
  exact declares_lookupClass hk hc.inTree hd

theorem declares_of_get? {module name : String} {scope : Scope}
    {decl : ClassDef} (hs : t.scope? module = some scope)
    (hd : scope.classes.get? name = some decl) : t.Declares ⟨scope, decl⟩ := by
  refine ⟨hk.scope _ _ hs, ?_⟩
  have hname := hk.cls _ _ _ _ hs hd
  rw [← hname] at hd
  exact hd

theorem has_of_mem_values {scope : Scope} (h : scope ∈ t.scopes.values) :
    t.Has scope := by
  obtain ⟨module, hm⟩ := Table.get?_of_mem_values hk.scopesOnce h
  exact hk.scope _ _ hm

theorem declares_of_mem_values {scope : Scope} {decl : ClassDef}
    (hs : t.Has scope) (hd : decl ∈ scope.classes.values) :
    t.Declares ⟨scope, decl⟩ := by
  obtain ⟨name, hn⟩ := Table.get?_of_mem_values (hk.classesOnce _ _ hs) hd
  exact declares_of_get? hk hs hn

end Lookup

end Symbols

end BridgeBindings
