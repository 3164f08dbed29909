import BridgeBindings.Syntax.Parser
import BridgeBindings.Syntax.Lexer

/-!
# Reading a whole text

A text that the grammar refuses is read a second time with causes looked for.
The row it is refused on is that of the cause, else the furthest one looked at;
but a text whose tokens are at fault further on is refused there, and one with a
bracket left open before the refusal is refused at the bracket.
-/

namespace BridgeBindings.Syntax.Grammar

def errorRow (ending : Ending) (row reached : Nat) : Nat :=
  match ending with
  | .fault fault true => fault
  | .unclosed opened => if opened < reached then opened else row
  | _ => row

/-- What a reader makes of a text, or the row it is refused on. -/
def run {α : Type} (p : Parser α) (t : Tokens) : Except Nat α :=
  match p { tokens := t.tokens } with
  | .ok a _ => .ok a
  | .fault row reached => .error (errorRow t.ending row reached)
  | .refuse reached =>
    match p { tokens := t.tokens, explaining := true } with
    | .fault row further => .error (errorRow t.ending row further)
    | _ => .error (errorRow t.ending reached reached)

end BridgeBindings.Syntax.Grammar
