import Lineage.Forest.Table

/-!
# The links between classes

Every class hangs below the class around it, or below its base class, or is a root.  A class with
a container is never linked to its base.  An inheritance link that would close a loop of
inheritance is refused, and a class that no root can reach after that is cut loose and made a
root, the first of the table first; so following links upwards always ends at a root.
-/

namespace Lineage

/-- For each class of a table, the base class and the container it hangs below. -/
structure Links where
  parents : Array (Option NodeId)
  containers : Array (Option NodeId)
  deriving DecidableEq, Repr, Inhabited

namespace Links

/-- The inheritance parent of a class. -/
def parent? (l : Links) (i : NodeId) : Option NodeId :=
  l.parents[i]?.join

/-- The class around a class. -/
def container? (l : Links) (i : NodeId) : Option NodeId :=
  l.containers[i]?.join

/-- The class that a class hangs below, by either kind of link. -/
def above? (l : Links) (i : NodeId) : Option NodeId :=
  (l.parent? i).or (l.container? i)

/-- Whether `target` is `node` or above it in the chain of `step`.  A chain that goes on for
longer than `fuel` counts as a hit. -/
def onChain (step : NodeId → Option NodeId) (target : NodeId) : Nat → NodeId → Bool
  | 0, _ => true
  | fuel + 1, node =>
    node == target ||
      match step node with
      | none => false
      | some next => onChain step target fuel next

/-- Whether the chain of `step` from `node` ends within `fuel` classes. -/
def ends (step : NodeId → Option NodeId) : Nat → NodeId → Bool
  | 0, _ => false
  | fuel + 1, node =>
    match step node with
    | none => true
    | some next => ends step fuel next

/-- The links before any inheritance: every class hangs below its container, if that is known. -/
def nesting (t : Table) : Links where
  parents := Array.replicate t.size none
  containers := ((List.range t.size).map t.containerOf).toArray

/-- Links class `i` to its base, unless it has a container or the link would close a loop of
inheritance. -/
def inherit (t : Table) (l : Links) (i : NodeId) : Links :=
  match l.container? i, t.baseOf i with
  | none, some base =>
    if onChain l.parent? i t.size base then l
    else { l with parents := l.parents.setIfInBounds i (some base) }
  | _, _ => l

/-- The links after every class has been linked to its base where that is possible. -/
def inheritance (t : Table) : Links :=
  (List.range t.size).foldl (inherit t) (nesting t)

/-- Cuts class `i` loose if no root is above it.  The second part collects the classes that were
cut loose. -/
def release (size : Nat) (state : Links × List NodeId) (i : NodeId) : Links × List NodeId :=
  let (l, released) := state
  if ends l.above? size i then state
  else
    (⟨l.parents.setIfInBounds i none, l.containers.setIfInBounds i none⟩, released ++ [i])

/-- The final links of a table, with the classes that were cut loose to break loops. -/
def resolve (t : Table) : Links × List NodeId :=
  (List.range t.size).foldl (release t.size) (inheritance t, [])

end Links

end Lineage
