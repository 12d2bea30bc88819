import Lineage.Forest.Basic

/-!
# The outline of a forest

The forest drawn as lines of text.  Below each class come first the classes that derive from it,
then the classes declared inside it.  A line shows its place by groups of four characters: one
bar or blank group for each level above, then a connector to its own parent.
-/

namespace Lineage

/-- How a line hangs below the line of its parent. -/
inductive Relation where
  | root
  | inherits
  | nested
  deriving DecidableEq, Repr, Inhabited

/-- One line of an outline. -/
structure OutlineLine where
  node : NodeId
  relation : Relation
  /-- The bars and the connector before the label. -/
  rails : String
  label : String
  modifier : Modifier
  deriving DecidableEq, Repr, Inhabited

namespace OutlineLine

/-- Whether the line shows a class declared inside the one above it. -/
def isNested (l : OutlineLine) : Bool :=
  l.relation == .nested

/-- The text of the line. -/
def plain (l : OutlineLine) : String :=
  l.rails ++ l.label

end OutlineLine

namespace Outline

/-- The connector to the parent, for the last of its siblings or another one. -/
def connector (isLast : Bool) : String :=
  if isLast then "└── " else "├── "

/-- What stands below a connector on the lines of the descendants. -/
def continuation (isLast : Bool) : String :=
  if isLast then "    " else "│   "

/-- The name of a class, its modifier unless that is normal, and a note if it is nested. -/
def label (d : Declaration) (relation : Relation) : String :=
  d.name ++
    (if d.modifier == .normal then "" else " [" ++ d.modifier.label ++ "]") ++
    (if relation == .nested then " (nested)" else "")

/-- The line of class `i`. -/
def line (f : Forest) (i : NodeId) (relation : Relation) (rails : String) : OutlineLine :=
  let d := ((f.node? i).map (·.declaration)).getD default
  { node := i, relation, rails, label := label d relation, modifier := d.modifier }

/-- The classes directly below class `i`, in the order of the drawing. -/
def below (f : Forest) (i : NodeId) : List (NodeId × Relation) :=
  (f.childrenOf i).map (fun j => (j, Relation.inherits)) ++
    (f.nestedOf i).map (fun j => (j, Relation.nested))

/-- Draws a list of siblings, given how to draw what is below one of them. -/
def siblings (f : Forest) (draw : NodeId → String → List OutlineLine) (indent : String) :
    List (NodeId × Relation) → List OutlineLine
  | [] => []
  | (i, relation) :: rest =>
    let isLast := rest.isEmpty
    line f i relation (indent ++ connector isLast) ::
      (draw i (indent ++ continuation isLast) ++ siblings f draw indent rest)

/-- The lines of everything below class `i`, down to `fuel` levels. -/
def descent (f : Forest) : Nat → NodeId → String → List OutlineLine
  | 0, _, _ => []
  | fuel + 1, i, indent => siblings f (descent f fuel) indent (below f i)

/-- The lines of class `i` and everything below it, with `i` at the top. -/
def subtree (f : Forest) (i : NodeId) : List OutlineLine :=
  line f i .root "" :: descent f f.size i ""

/-- The lines of the whole forest. -/
def lines (f : Forest) : List OutlineLine :=
  f.roots.flatMap (subtree f)

end Outline

end Lineage
