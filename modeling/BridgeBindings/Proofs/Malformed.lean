import BridgeBindings.Proofs.Parts

/-!
# Annotations that say nothing

An annotation is malformed if something is wrong with it whatever its names
stand for: a part of it that is read is no annotation, a name in it is neither
declared nor imported nor known to the language, or a text that it quotes cannot
be read or is malformed itself. Only the parts that are read count, so nothing
is wrong with the arguments of a class of the program.

A reading that stops on its own stops at a wrong part, and a wrong part makes
the whole malformed.
-/

namespace BridgeBindings

open Syntax

/-- An annotation that cannot be read as it is written: some part that is read
is no name, has no meaning, is torn or has no text. -/
inductive Malformed (scope : Scope) : Expr → Prop where
  | unsupported {e : Expr} (asName : readsAsName e = true)
      (noName : e.dotted? = none) : Malformed scope e
  | undefined {e : Expr} {dotted name : String} (asName : readsAsName e = true)
      (named : e.dotted? = some dotted)
      (left : builtinName scope dotted = some name)
      (unknown : Undefined scope name dotted) : Malformed scope e
  | leftSide {pos : Position} {left right : Expr} (h : Malformed scope left) :
      Malformed scope (.binary pos left .bitOr right)
  | rightSide {pos : Position} {left right : Expr} (h : Malformed scope right) :
      Malformed scope (.binary pos left .bitOr right)
  | unsupportedHead {pos : Position} {value index : Expr}
      (noName : value.dotted? = none) :
      Malformed scope (.subscript pos value index)
  | undefinedHead {pos : Position} {value index : Expr} {dotted name : String}
      (named : value.dotted? = some dotted)
      (left : builtinName scope dotted = some name)
      (noGeneric : takesArguments name = false)
      (unknown : Undefined scope name dotted) :
      Malformed scope (.subscript pos value index)
  | argument {pos : Position} {value index arg : Expr} {dotted name : String}
      (named : value.dotted? = some dotted)
      (left : builtinName scope dotted = some name)
      (isRead : arg ∈ selected name (arguments index) (arguments index))
      (h : Malformed scope arg) : Malformed scope (.subscript pos value index)
  | torn {pos : Position} {value : TornText} {marked : Bool} :
      Malformed scope (.constant pos (.torn value marked))
  | unreadable {e : Expr} {text : String} {row : Nat}
      (asked : .text text ∈ asks scope e)
      (unread : readExpression (Text.trim text) = .error row) :
      Malformed scope e
  | quoted {e inner : Expr} {text : String} (asked : .text text ∈ asks scope e)
      (parsed : readExpression (Text.trim text) = .ok inner)
      (h : Malformed scope inner) : Malformed scope e

/-- A quoted annotation that cannot be read or is malformed. -/
def MalformedText (scope : Scope) (text : String) : Prop :=
  (∃ row, readExpression (Text.trim text) = .error row) ∨
    ∃ inner, readExpression (Text.trim text) = .ok inner ∧ Malformed scope inner

/-- A part that is wrong makes the whole malformed. -/
theorem Reads.malformed {scope : Scope} {e x : Expr}
    {verdict : Except Breakdown String} (h : Reads scope e x)
    (hw : Wrong scope x verdict) : Malformed scope e := by
  induction h with
  | whole =>
      cases hw with
      | unsupported asName noName => exact .unsupported asName noName
      | undefined asName named left unknown =>
          exact .undefined asName named left unknown
      | unsupportedHead noName => exact .unsupportedHead noName
      | undefinedHead named left noGeneric unknown =>
          exact .undefinedHead named left noGeneric unknown
      | unreadable posed unread =>
          exact .unreadable (Reads.whole.mem_asks posed) unread
      | torn => exact .torn
  | left _ ih => exact .leftSide (ih hw)
  | right _ ih => exact .rightSide (ih hw)
  | argument named left isRead _ ih => exact .argument named left isRead (ih hw)

theorem WrongWithin.malformed {scope : Scope} {e x : Expr}
    {verdict : Except Breakdown String} (h : WrongWithin scope e x verdict) :
    Malformed scope e := by
  obtain ⟨whole, hwithin, hx, hw⟩ := h
  induction hwithin with
  | here => exact hx.malformed hw
  | quoted isRead posed parsed _ ih =>
      exact .quoted (isRead.mem_asks posed) parsed (ih hx)

end BridgeBindings
