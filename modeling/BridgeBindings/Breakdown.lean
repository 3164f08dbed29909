/-!
# Breakdowns

What no part of the program expects: an expression that cannot be written out
for a message, and a text that cannot be turned into bytes. Nothing on the way
handles them, so they end whatever is under way.
-/

namespace BridgeBindings

inductive Breakdown where
  /-- A number of more digits than are written out. -/
  | digits
  /-- An expression inside a formatted string that would need a backslash. -/
  | backslash
  /-- A text with a surrogate on its own. -/
  | surrogate
  deriving DecidableEq, Repr, Inhabited

def Breakdown.text : Breakdown → String
  | .digits =>
    "Exceeds the limit (4300 digits) for integer string conversion; " ++
      "use sys.set_int_max_str_digits() to increase the limit"
  | .backslash => "Unable to avoid backslash in f-string expression part"
  | .surrogate => "surrogates not allowed"

end BridgeBindings
