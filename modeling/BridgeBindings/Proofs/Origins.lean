import BridgeBindings.Proofs.Declared
import BridgeBindings.Proofs.Mentions
import BridgeBindings.Resolve.Class
import Mathlib.Logic.Relation

/-!
# Where faults come from

An annotation cannot be resolved if it is malformed, or if it mentions a name
that stands for no type. Whatever else goes wrong when it is resolved, goes
wrong with an alias or a class that it names, so a fault is traced back along
what resolving may come to: from a class to its bases and its annotations,
from an annotation to the classes and the aliases that it mentions. Where
this ends is the annotation to blame, and the fault names the package in
which it is written.
-/

namespace BridgeBindings

open Syntax

/-- Whether a name that stands for this can be a type. -/
def Symbol.isType : Symbol → Bool
  | .cls _ | .alias .. | .external _ => true
  | .function .. | .module _ => false

/-- A class, or an annotation with the scope that it is written in. -/
inductive Item where
  | cls (c : ProgramClass)
  | expr (scope : Scope) (e : Expr)

namespace Symbols

/-- What is wrong with an annotation itself, whatever it leads to. -/
def Unresolvable (t : Symbols) (scope : Scope) (e : Expr) : Prop :=
  Malformed scope e ∨
    ∃ dotted, Mentions scope e dotted ∧
      (t.lookup scope dotted).any Symbol.isType = false

/-- What resolving comes to next. An enum is no struct, and the result of a call
no type, so neither is followed. -/
inductive Leads (t : Symbols) : Item → Item → Prop where
  | base {c b : ProgramClass} (isBase : b ∈ t.bases c) :
      Leads t (.cls c) (.cls b)
  | field {c : ProgramClass} {f : FieldDecl} (declared : f ∈ c.decl.fields) :
      Leads t (.cls c) (.expr c.scope f.typeExpr)
  | named {scope : Scope} {e : Expr} {dotted : String} {c : ProgramClass}
      (mentioned : Mentions scope e dotted)
      (stands : t.lookup scope dotted = some (.cls c))
      (noEnum : t.enumType c = none) : Leads t (.expr scope e) (.cls c)
  | aliased {scope scope' : Scope} {e value : Expr} {dotted name : String}
      (mentioned : Mentions scope e dotted)
      (stands : t.lookup scope dotted = some (.alias scope' name value))
      (noCall : isCall value = false) :
      Leads t (.expr scope e) (.expr scope' value)

/-- What resolving an item may come to. -/
def Reaches (t : Symbols) : Item → Item → Prop := Relation.ReflTransGen t.Leads

/-- A fault that comes from an annotation to which an item leads. -/
def Blames (t : Symbols) (item : Item) (f : TypeFault) : Prop :=
  ∃ scope e, t.Reaches item (.expr scope e) ∧ t.Unresolvable scope e ∧
    f.package = scope.package

/-- A wrong part of an annotation to which an item leads, for which there is no
message. -/
def Illegible (t : Symbols) (item : Item) (b : Breakdown) : Prop :=
  ∃ scope e x, t.Reaches item (.expr scope e) ∧ WrongWithin scope e x (.error b)

theorem Blames.lead {t : Symbols} {a b : Item} {f : TypeFault}
    (hl : t.Leads a b) (h : t.Blames b f) : t.Blames a f := by
  obtain ⟨scope, e, hreach, hbad, hpackage⟩ := h
  exact ⟨scope, e, .head hl hreach, hbad, hpackage⟩

theorem Illegible.lead {t : Symbols} {a i : Item} {b : Breakdown}
    (hl : t.Leads a i) (h : t.Illegible i b) : t.Illegible a b := by
  obtain ⟨scope, e, x, hreach, hwrong⟩ := h
  exact ⟨scope, e, x, .head hl hreach, hwrong⟩

/-! ## What can always be told -/

/-- A name is read as a whole, and whatever is wrong with it can be told. -/
theorem told_of_dotted {scope : Scope} {e x : Expr} {dotted : String}
    {b : Breakdown} (he : e.dotted? = some dotted) :
    ¬WrongWithin scope e x (.error b) := by
  have hreads {y : Expr} (hy : Reads scope e y) : y = e := by
    cases hy with
    | whole => rfl
    | left | right | argument => cases he
  rintro ⟨whole, hwhole, hx, hwrong⟩
  cases hwhole with
  | here =>
      obtain rfl := hreads hx
      generalize hverdict : Except.error b = verdict at hwrong
      cases hwrong with
      | unsupported _ noName => rw [noName] at he; cases he
      | undefined | undefinedHead | unreadable => cases hverdict
      | unsupportedHead => cases he
      | torn => cases he
  | quoted isRead posed =>
      obtain rfl := hreads isRead
      cases posed
      cases he

/-- Where the annotations of fields and the values of aliases are names,
whatever is wrong with what a class leads to can be told. -/
theorem told_of_named {t : Symbols} (hk : t.Keyed)
    (hfields : ∀ c, t.Declares c → ∀ f ∈ c.decl.fields,
      f.typeExpr.dotted? ≠ none)
    (haliases : ∀ scope name value, t.DeclaresAlias scope name value →
      value.dotted? ≠ none)
    {c : ProgramClass} (hc : t.Declares c) (b : Breakdown) :
    ¬t.Illegible (.cls c) b := by
  have hnamed : ∀ item, t.Reaches (.cls c) item → match item with
      | .cls d => t.Declares d
      | .expr scope e => t.Has scope ∧ e.dotted? ≠ none := by
    intro item hreach
    induction hreach with
    | refl => exact hc
    | tail _ hl ih =>
        cases hl with
        | base isBase => exact declares_bases hk ih isBase
        | field declared => exact ⟨ih.inTree, hfields _ ih _ declared⟩
        | named _ stands => exact owns_lookup hk ih.1 stands
        | aliased _ stands =>
            have howned := owns_lookup hk ih.1 stands
            exact ⟨howned.inTree, haliases _ _ _ howned⟩
  rintro ⟨scope, e, x, hreach, hwrong⟩
  obtain ⟨dotted, hdotted⟩ := Option.ne_none_iff_exists'.mp (hnamed _ hreach).2
  exact told_of_dotted hdotted hwrong

end Symbols

/-- How resolving an item stops, if it does: on a fault to which it leads, or at
one that cannot be told. -/
def Stops (t : Symbols) (item : Item) : Stop → Prop
  | .fault f => t.Blames item f
  | .broken b => t.Illegible item b
  | .exhausted => False

theorem Stops.lead {t : Symbols} {a b : Item} (hl : t.Leads a b) {e : Stop}
    (h : Stops t b e) : Stops t a e := by
  cases e with
  | fault f => exact Symbols.Blames.lead hl h
  | broken b => exact Symbols.Illegible.lead hl h
  | exhausted => exact h

/-- A fault of a site is one of the annotation that is written there. -/
theorem stops_of_unresolvable {t : Symbols} {site : Site} {e : Expr}
    (h : t.Unresolvable site.scope e) (row : Nat) (message : String) :
    Stops t (.expr site.scope e) (.fault (site.fault row message)) :=
  ⟨site.scope, e, .refl, h, rfl⟩

theorem stops_of_wrong {t : Symbols} {site : Site} {e x : Expr}
    {verdict : Except Breakdown String}
    (h : WrongWithin site.scope e x verdict) :
    Stops t (.expr site.scope e) (site.stop x.row verdict) := by
  cases verdict with
  | ok message => exact stops_of_unresolvable (.inl h.malformed) x.row message
  | error b => exact ⟨site.scope, e, x, .refl, h⟩

end BridgeBindings
