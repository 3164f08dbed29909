import BridgeBindings.Bridge.ObjectClass
import BridgeBindings.Proofs.Tables
import Mathlib.Data.Option.Basic

/-!
# Looking names up in programs that are alike

Of a scope, a lookup reads its module and what it finds under a name among the
imports, the classes, the functions and the values; in which order the source
declares them does not matter. In two programs whose scopes are alike in this
sense, a name stands for the same declaration, and an expression has the same
class if the walks over the module give the names that are followed the same
values and annotations.
-/

namespace BridgeBindings

open Syntax

/-- Two scopes have the same under every name. -/
structure Scope.Alike (a b : Scope) : Prop where
  module : a.module = b.module
  imports : ∀ name, a.imports.get? name = b.imports.get? name
  classes : ∀ name, a.classes.get? name = b.classes.get? name
  functions : ∀ name, a.functions.get? name = b.functions.get? name
  aliases : ∀ name, a.aliases.get? name = b.aliases.get? name

theorem Scope.Alike.refl (a : Scope) : a.Alike a :=
  ⟨rfl, fun _ => rfl, fun _ => rfl, fun _ => rfl, fun _ => rfl⟩

/-- Two classes are the same declaration in scopes that are alike. -/
structure ProgramClass.Alike (c d : ProgramClass) : Prop where
  scope : c.scope.Alike d.scope
  decl : c.decl = d.decl

/-- Two symbols are the same thing in scopes that are alike. -/
inductive Symbol.Alike : Symbol → Symbol → Prop
  | cls {c d : ProgramClass} (h : c.Alike d) : Alike (.cls c) (.cls d)
  | function {a b : Scope} (h : a.Alike b) (decl : FunctionDef) :
      Alike (.function a decl) (.function b decl)
  | alias {a b : Scope} (h : a.Alike b) (name : String) (value : Expr) :
      Alike (.alias a name value) (.alias b name value)
  | module {a b : Scope} (h : a.Alike b) : Alike (.module a) (.module b)
  | external (name : String) : Alike (.external name) (.external name)

/-- Two programs have the same modules, with scopes that are alike. -/
def Symbols.Alike (t u : Symbols) : Prop :=
  ∀ module, Option.Rel Scope.Alike (t.scope? module) (u.scope? module)

namespace Scope.Alike

variable {a b : Scope} (h : a.Alike b)

include h

theorem declared? (name : String) :
    Option.Rel Symbol.Alike (a.declared? name) (b.declared? name) := by
  unfold Scope.declared?
  rw [h.classes, h.functions, h.aliases]
  cases b.classes.get? name with
  | some c => exact .some (.cls ⟨h, rfl⟩)
  | none =>
      cases b.functions.get? name with
      | some f => exact .some (.function h f)
      | none =>
          cases b.aliases.get? name with
          | some value => exact .some (.alias h name value)
          | none => exact .none

end Scope.Alike

namespace Symbols

variable {t u : Symbols}

/-- The ways in which lookups follow imports are alike. -/
abbrev FollowAlike : Option (String → Option Symbol) →
    Option (String → Option Symbol) → Prop :=
  Option.Rel fun follow follow' => ∀ name,
    Option.Rel Symbol.Alike (follow name) (follow' name)

namespace Alike

variable (h : t.Alike u)

include h

theorem isInTree (name : String) : t.isInTree name = u.isInTree name := by
  have hkeys : ∀ module, module ∈ t.scopes.keys ↔ module ∈ u.scopes.keys := by
    intro module
    rw [Table.mem_keys_iff, Table.mem_keys_iff]
    show (t.scope? module).isSome ↔ (u.scope? module).isSome
    have hscope := h module
    generalize t.scope? module = x, u.scope? module = y at hscope ⊢
    cases hscope <;> rfl
  unfold Symbols.isInTree
  rw [Bool.eq_iff_iff, List.any_eq_true, List.any_eq_true]
  simp only [hkeys]

theorem longestModule (parts : List String) (n : Nat) :
    Option.Rel (fun x y => x.1.Alike y.1 ∧ x.2 = y.2) (t.longestModule parts n)
      (u.longestModule parts n) := by
  induction n with
  | zero => exact .none
  | succ n ih =>
      rw [Symbols.longestModule, Symbols.longestModule]
      have hscope := h (dotJoin (parts.take (n + 1)))
      generalize t.scope? _ = x, u.scope? _ = y at hscope
      cases hscope with
      | some hscope => exact .some ⟨hscope, rfl⟩
      | none => exact ih

theorem member {follow follow' : Option (String → Option Symbol)}
    (hfollow : FollowAlike follow follow') {a b : Scope} (hab : a.Alike b)
    (name : String) :
    Option.Rel Symbol.Alike (t.member follow a name)
    (u.member follow' b name) := by
  have hbelow :
      Option.Rel Symbol.Alike ((t.scope? (a.module ++ "." ++ name)).map .module)
      ((u.scope? (b.module ++ "." ++ name)).map .module) := by
    rw [hab.module]
    have hscope := h (b.module ++ "." ++ name)
    generalize t.scope? _ = x, u.scope? _ = y at hscope
    cases hscope with
    | some hscope => exact .some (.module hscope)
    | none => exact .none
  unfold Symbols.member
  have hdeclared := hab.declared? name
  rw [hab.imports]
  generalize a.declared? name = x, b.declared? name = y at hdeclared
  cases hdeclared with
  | some hsymbol => exact .some hsymbol
  | none =>
      cases b.imports.get? name with
      | none => exact hbelow
      | some binding =>
          cases hfollow with
          | some hfollow => exact hfollow binding.qualifiedName
          | none => exact hbelow

theorem lookupStep {follow follow' : Option (String → Option Symbol)}
    (hfollow : FollowAlike follow follow') (name : String) :
    Option.Rel Symbol.Alike (t.lookupStep follow name)
    (u.lookupStep follow' name) := by
  have hmodule :=
    h.longestModule (Text.split '.' name) (Text.split '.' name).length
  unfold Symbols.lookupStep
  rw [h.isInTree]
  extract_lets parts
  generalize t.longestModule _ _ = x, u.longestModule _ _ = y at hmodule
  cases hmodule with
  | none =>
      dsimp only
      split
      · exact .none
      · exact .some (.external name)
  | @some x y hscope =>
      obtain ⟨a, rest⟩ := x
      obtain ⟨b, rest'⟩ := y
      obtain ⟨hab, rfl⟩ := hscope
      match rest with
      | [] => exact .some (.module hab)
      | [last] => exact h.member hfollow hab last
      | _ :: _ :: _ => exact .none

theorem lookupWithin (reexports : Nat) (name : String) :
    Option.Rel Symbol.Alike (t.lookupWithin reexports name)
      (u.lookupWithin reexports name) := by
  induction reexports generalizing name with
  | zero => exact h.lookupStep .none name
  | succ reexports ih => exact h.lookupStep (.some ih) name

theorem lookup {a b : Scope} (hab : a.Alike b) (dotted : String) :
    Option.Rel Symbol.Alike (t.lookup a dotted) (u.lookup b dotted) := by
  unfold Symbols.lookup
  obtain ⟨head, rest⟩ := splitHead dotted
  dsimp only
  have hdeclared := hab.declared? head
  rw [hab.imports]
  generalize a.declared? _ = x, b.declared? _ = y at hdeclared
  cases hdeclared with
  | some hsymbol =>
      dsimp only
      split
      · exact .some hsymbol
      · exact .none
  | none =>
      cases b.imports.get? head with
      | none => exact .none
      | some binding => exact h.lookupWithin maxReexports _

theorem lookupClass {a b : Scope} (hab : a.Alike b) (dotted : String) :
    Option.Rel ProgramClass.Alike (t.lookupClass a dotted)
    (u.lookupClass b dotted) := by
  unfold Symbols.lookupClass
  have hsymbol := h.lookup hab dotted
  generalize t.lookup a dotted = x, u.lookup b dotted = y at hsymbol
  cases hsymbol with
  | none => exact .none
  | some hsymbol =>
      cases hsymbol with
      | cls hclass => exact .some hclass
      | _ => exact .none

theorem classOfCall {a b : Scope} (hab : a.Alike b) (func : Expr) :
    Option.Rel ProgramClass.Alike (t.classOfCall a func)
    (u.classOfCall b func) := by
  have hsymbol : Option.Rel Symbol.Alike (func.dotted?.bind (t.lookup a))
      (func.dotted?.bind (u.lookup b)) := by
    cases func.dotted? with
    | none => exact .none
    | some dotted => exact h.lookup hab dotted
  unfold Symbols.classOfCall
  generalize func.dotted?.bind (t.lookup a) = x,
    func.dotted?.bind (u.lookup b) = y at hsymbol
  cases hsymbol with
  | none => exact .none
  | some hsymbol =>
      cases hsymbol with
      | cls hclass => exact .some hclass
      | @function home home' hhome f =>
          show Option.Rel _ ((returnName? f).bind (t.lookupClass home))
            ((returnName? f).bind (u.lookupClass home'))
          cases returnName? f with
          | none => exact .none
          | some name => exact h.lookupClass hhome name
      | _ => exact .none

end Alike

end Symbols

/-! ## Names that are followed -/

/-- A name that may be followed to find the class of an expression: the
expression itself, or a name that a value leads to. -/
inductive BridgeCalls.Leads (calls : BridgeCalls) : Expr → String → Prop
  | name (pos : Position) (id : String) : Leads calls (.name pos id) id
  | value (pos : Position) {id next : String} {value : Expr}
      (hvalue : calls.values.get? id = some value)
      (hnext : Leads calls value next) : Leads calls (.name pos id) next

namespace Symbols

/-- The class that a name is annotated with. -/
def annotatedClass? (t : Symbols) (scope : Scope) (calls : BridgeCalls)
    (id : String) : Option ProgramClass :=
  (calls.annotations.get? id).bind fun e => e.dotted?.bind (t.lookupClass scope)

theorem classOfWithin_name (t : Symbols) (scope : Scope)
    (calls : BridgeCalls) (names : Nat) (pos : Position) (id : String) :
    t.classOfWithin scope calls names (.name pos id) =
      (t.annotatedClass? scope calls id).or
        (match names with
          | 0 => none
          | names + 1 =>
          (calls.values.get? id).bind (t.classOfWithin scope calls names)) := by
  rw [classOfWithin.eq_def, annotatedClass?]
  dsimp only
  cases (calls.annotations.get? id).bind fun e =>
    e.dotted?.bind (t.lookupClass scope) with
  | some c => rfl
  | none => cases calls.values.get? id <;> cases names <;> rfl

namespace Alike

variable {t u : Symbols} (h : t.Alike u) {a b : Scope} (hab : a.Alike b)
    {calls calls' : BridgeCalls}

include h hab

theorem annotatedClass? {id : String}
    (htyped : calls.annotations.get? id = calls'.annotations.get? id) :
    Option.Rel ProgramClass.Alike (t.annotatedClass? a calls id)
      (u.annotatedClass? b calls' id) := by
  unfold Symbols.annotatedClass?
  rw [htyped]
  cases calls'.annotations.get? id with
  | none => exact .none
  | some e =>
      rw [Option.bind_some, Option.bind_some]
      cases e.dotted? with
      | none => exact .none
      | some dotted => exact h.lookupClass hab dotted

/-- An expression has the same class if the names that it leads to have the same
values and annotations. -/
theorem classOfWithin (names : Nat) {e : Expr}
    (hsame : ∀ id, calls.Leads e id →
      calls.values.get? id = calls'.values.get? id ∧
      calls.annotations.get? id = calls'.annotations.get? id) :
    Option.Rel ProgramClass.Alike (t.classOfWithin a calls names e)
      (u.classOfWithin b calls' names e) := by
  cases e with
  | call pos func args keywords =>
      rw [Symbols.classOfWithin, Symbols.classOfWithin]
      exact h.classOfCall hab func
  | name pos id =>
      obtain ⟨hvalue, htyped⟩ := hsame id (.name pos id)
      have hclass := h.annotatedClass? hab htyped
      rw [classOfWithin_name, classOfWithin_name]
      generalize t.annotatedClass? a calls id = x,
        u.annotatedClass? b calls' id = y at hclass
      cases hclass with
      | some hclass => exact .some hclass
      | none =>
          cases names with
          | zero => exact .none
          | succ names =>
              rw [Option.none_or, Option.none_or, ← hvalue]
              cases hget : calls.values.get? id with
              | none => exact .none
              | some value =>
                  exact classOfWithin names fun next hnext =>
                    hsame next (.value pos hget hnext)
  | _ =>
      rw [classOfWithin.eq_def, classOfWithin.eq_def]
      exact .none

end Alike

end Symbols

end BridgeBindings
