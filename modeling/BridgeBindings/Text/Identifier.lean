import BridgeBindings.Text.Blank
import BridgeBindings.Text.Ranges

/-!
# Identifiers

An identifier opens with a letter or an underscore and goes on with letters,
digits and marks, in the Unicode sense. Dotted identifiers name modules.
-/

namespace BridgeBindings.Text

def opensIdentifier (c : Char) : Bool :=
  if c.toNat < 128 then c.isAlpha || c = '_'
    else inRanges c.toNat identifierStartRanges

def extendsIdentifier (c : Char) : Bool :=
  if c.toNat < 128 then c.isAlphanum || c = '_'
  else inRanges c.toNat identifierStartRanges ||
    inRanges c.toNat identifierExtendRanges

def isIdentifierChars : List Char → Bool
  | [] => false
  | c :: cs => opensIdentifier c && cs.all extendsIdentifier

def isIdentifier (s : String) : Bool := isIdentifierChars s.toList

/-- One or more identifiers joined by dots. -/
def isDottedIdentifier (s : String) : Bool := (split '.' s).all isIdentifier

end BridgeBindings.Text
