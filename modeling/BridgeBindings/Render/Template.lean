import BridgeBindings.Render.Shown
import BridgeBindings.Text.Blank

/-!
# Replacement templates

A project may bring templates of its own for the files of a package. A template
is literal text with places, in double braces, that name an attribute of the
package. A place that is not closed or names nothing spoils the template.
-/

namespace BridgeBindings.Render

/-- What stands in a place: the package, a dot and the name of an attribute. -/
def placeText? (p : Package) (place : List Char) : Option (List Char) :=
  match (Text.split '.' (String.ofList place)).map Text.trim with
  | ["package", name] => (Shown.attribute? p name).map String.toList
  | _ => none

/-- Fills a template; `place` is the place that is being read, in reverse. -/
def fillFrom (p : Package) : Option (List Char) → List Char → Option (List Char)
  | none, [] => some []
  | some _, [] => none
  | none, '\x7b' :: '\x7b' :: cs => fillFrom p (some []) cs
  | none, c :: cs => (fillFrom p none cs).map (c :: ·)
  | some place, '\x7d' :: '\x7d' :: cs =>
    (placeText? p place.reverse).bind fun text =>
      (fillFrom p none cs).map (text ++ ·)
  | some place, c :: cs => fillFrom p (some (c :: place)) cs

def fill (template : String) (p : Package) : Option String :=
  (fillFrom p none template.toList).map String.ofList

end BridgeBindings.Render
