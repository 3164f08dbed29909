import BridgeBindings.Syntax.Grammar.Statement
import BridgeBindings.Text.Blank

/-!
# Reading modules and expressions

The two texts that are read: the source of a module, whose last row need not be
ended, and an expression on its own, as in a quoted annotation.
-/

namespace BridgeBindings.Syntax

open Grammar BridgeBindings.Syntax.Parser

/-- The tree of a module, or the row on which its text is wrong. -/
def readModule (text : String) : Except Nat Module :=
  let cs := Text.unifyLineEnds text.toList
  let cs := if cs.getLast? = some '\n' then cs else cs ++ ['\n']
  let depth := cs.length + 1
  let rules := expressionAt depth
  let whole : Parser Module := do
    let body ← statementsAt rules (patternAt rules depth) depth
    kind .finish
    return ⟨body⟩
  run whole (Lexer.tokens ⟨1, 0⟩ cs)

/-- The tree of an expression, or the row on which its text is wrong. -/
def readExpression (text : String) : Except Nat Expr :=
  let cs := Text.unifyLineEnds text.toList
  let rules := expressionAt (cs.length + 1)
  let whole : Parser Expr := do
    let e ← tupleOf (rules .expression)
    repeatFrom () fun _ => do
      if (← peek).kind == .newline then
        advance
        return some ()
      else return none
    kind .finish
    return e
  run whole (Lexer.tokens ⟨1, 0⟩ cs)

end BridgeBindings.Syntax
