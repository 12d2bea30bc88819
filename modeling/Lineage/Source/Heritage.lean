import Lineage.Text.Blank

/-!
# Inheritance lists

The names after a class name are separated by commas.  Arguments in parentheses and words such as
access specifiers are dropped, and the list is split into a base class and interfaces.
-/

namespace Lineage.Source

/-- Drops leading words that are in `skipped`, but never the last word. -/
def dropSkipped (skipped : List String) : List (List Char) → List (List Char)
  | word :: next :: rest =>
    if skipped.contains (String.ofList word) then dropSkipped skipped (next :: rest)
    else word :: next :: rest
  | short => short

/-- One entry of an inheritance list: cut at the first parenthesis, without skipped words and with
single blanks. -/
def heritageEntry (skipped : List String) (entry : List Char) : List Char :=
  let kept := entry.takeWhile (· != '(')
  Text.join [' '] (dropSkipped skipped (Text.words kept))

/-- The names of an inheritance list. -/
def splitHeritage (list : List Char) (skipped : List String) : List String :=
  (((Text.pieces (· == ',') list).map (heritageEntry skipped)).filter
    (fun name => !name.isEmpty)).map String.ofList

/-- The part of a name after its last dot or colon. -/
def lastSegment (name : List Char) : List Char :=
  (name.reverse.takeWhile (fun c => c != '.' && c != ':')).reverse

/-- Whether the last segment of a name is `I` and a capital. -/
def isInterfaceName (name : String) : Bool :=
  match lastSegment name.toList with
  | 'I' :: c :: _ => c.isUpper
  | _ => false

/-- What a class inherits: its base and its interfaces. -/
structure Heritage where
  base : Option String := none
  interfaces : List String := []
  deriving DecidableEq, Repr, Inhabited

/-- The first name is the base and the others are interfaces, but where interfaces are marked by
their names a list that starts with one has no base. -/
def assignBases (names : List String) (marksInterfaces : Bool) : Heritage :=
  match names with
  | [] => {}
  | first :: rest =>
    if marksInterfaces && isInterfaceName first then { interfaces := names }
    else { base := some first, interfaces := rest }

end Lineage.Source
