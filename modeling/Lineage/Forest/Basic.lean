import Lineage.Forest.Links

/-!
# The forest of classes

The links of a table turned downwards: each class lists the classes that derive from it and the
classes declared inside it, both sorted by name, and the roots are sorted by name too.  Sorting is
stable, so classes of one name keep the order of the table.
-/

namespace Lineage

/-- A class in its place in the forest. -/
structure Node where
  declaration : Declaration
  parent : Option NodeId
  container : Option NodeId
  /-- The classes that derive from it, sorted by name. -/
  children : List NodeId
  /-- The classes declared inside it, sorted by name. -/
  nested : List NodeId
  /-- The number of its inheritance ancestors. -/
  depth : Nat
  deriving DecidableEq, Repr, Inhabited

/-- Classes linked by inheritance and containment. -/
structure Forest where
  nodes : Array Node := #[]
  roots : List NodeId := []
  deriving DecidableEq, Repr, Inhabited

/-- How many classes are below a class, by the kind of the last link to them. -/
structure Descendants where
  inherited : Nat := 0
  nested : Nat := 0
  deriving DecidableEq, Repr, Inhabited

namespace Descendants

/-- All classes below a class. -/
def total (d : Descendants) : Nat :=
  d.inherited + d.nested

end Descendants

namespace Node

/-- The simple name of a class. -/
def name (n : Node) : String :=
  n.declaration.name

/-- The name of a class behind its scope. -/
def qualifiedName (n : Node) : String :=
  n.declaration.qualifiedName

/-- Whether nothing hangs below a class. -/
def isLeaf (n : Node) : Bool :=
  n.children.isEmpty && n.nested.isEmpty

end Node

namespace Forest

/-! ### Building -/

/-- The simple name at a place of the table. -/
def nameAt (t : Table) (i : NodeId) : String :=
  (t.entries[i]?.map (·.name)).getD ""

/-- Sorts classes by simple name, keeping the order of equal names. -/
def sortByName (t : Table) (ids : List NodeId) : List NodeId :=
  ids.mergeSort (fun i j => !decide (nameAt t j < nameAt t i))

/-- The classes that hang below class `i` by the links `above`, in the order of the table. -/
def hangingBelow (size : Nat) (above : NodeId → Option NodeId) (i : NodeId) : List NodeId :=
  (List.range size).filter (fun j => above j == some i)

/-- Writes the depths of the classes in `pending`, each with its depth, and of all classes below
them. -/
def layDepths (below : NodeId → List NodeId) :
    Nat → List (NodeId × Nat) → Array Nat → Array Nat
  | 0, _, depths => depths
  | _, [], depths => depths
  | fuel + 1, (i, depth) :: pending, depths =>
    layDepths below fuel ((below i).map (fun j => (j, depth + 1)) ++ pending)
      (depths.setIfInBounds i depth)

/-- The inheritance depth of every class. -/
def depths (size : Nat) (links : Links) : Array Nat :=
  let tops := (List.range size).filter (fun i => (links.parent? i).isNone)
  layDepths (hangingBelow size links.parent?) size (tops.map (fun i => (i, 0)))
    (Array.replicate size 0)

/-- The forest of a table with given links; `released` are the roots that were cut loose, which
come after the other roots of the same name. -/
def assemble (t : Table) (links : Links) (released : List NodeId) : Forest :=
  let ids := List.range t.size
  let depth := depths t.size links
  let node (i : NodeId) : Node :=
    { declaration := (t.entries[i]?).getD default
      parent := links.parent? i
      container := links.container? i
      children := sortByName t (hangingBelow t.size links.parent? i)
      nested := sortByName t (hangingBelow t.size links.container? i)
      depth := (depth[i]?).getD 0 }
  let natural :=
    ids.filter (fun i => (links.above? i).isNone && !released.contains i)
  { nodes := (ids.map node).toArray
    roots := sortByName t (natural ++ released) }

/-- The forest of a list of declarations. -/
def build (declarations : List Declaration) : Forest :=
  let t := Table.ofList declarations
  let (links, released) := Links.resolve t
  assemble t links released

/-! ### Looking up -/

/-- The number of classes. -/
def size (f : Forest) : Nat :=
  f.nodes.size

/-- Whether there is no class. -/
def isEmpty (f : Forest) : Bool :=
  f.nodes.isEmpty

/-- The class at a place of the table. -/
def node? (f : Forest) (i : NodeId) : Option Node :=
  f.nodes[i]?

/-- The declarations in the order of the table. -/
def declarations (f : Forest) : List Declaration :=
  f.nodes.toList.map (·.declaration)

/-- The class with the given qualified name. -/
def findQualified? (f : Forest) (name : String) : Option NodeId :=
  f.nodes.findIdx? (fun n => n.qualifiedName == name)

/-- The first class with the given simple name. -/
def findNamed? (f : Forest) (name : String) : Option NodeId :=
  f.nodes.findIdx? (fun n => n.name == name)

/-- The qualified name of class `i`, empty if there is no such class. -/
def qualifiedName (f : Forest) (i : NodeId) : String :=
  ((f.node? i).map (·.qualifiedName)).getD ""

/-- The inheritance parent of a class. -/
def parent? (f : Forest) (i : NodeId) : Option NodeId :=
  (f.node? i).bind (·.parent)

/-- The classes that derive from class `i`. -/
def childrenOf (f : Forest) (i : NodeId) : List NodeId :=
  ((f.node? i).map (·.children)).getD []

/-- The classes declared inside class `i`. -/
def nestedOf (f : Forest) (i : NodeId) : List NodeId :=
  ((f.node? i).map (·.nested)).getD []

/-! ### Walking -/

/-- The classes along the chain of `step` after `i`, at most `fuel` of them. -/
def chain (step : NodeId → Option NodeId) : Nat → NodeId → List NodeId
  | 0, _ => []
  | fuel + 1, i =>
    match step i with
    | none => []
    | some next => next :: chain step fuel next

/-- The inheritance ancestors of a class, the nearest first. -/
def ancestors (f : Forest) (i : NodeId) : List NodeId :=
  chain f.parent? f.size i

/-- The inheritance chain from the topmost ancestor of a class down to the class itself. -/
def inheritancePath (f : Forest) (i : NodeId) : List NodeId :=
  (f.ancestors i).reverse ++ [i]

/-- Adds up the classes directly below each class of `pending` and of everything below them. -/
def countBelow (f : Forest) : Nat → List NodeId → Descendants → Descendants
  | 0, _, counts => counts
  | _, [], counts => counts
  | fuel + 1, i :: pending, counts =>
    let children := f.childrenOf i
    let nested := f.nestedOf i
    countBelow f fuel (nested ++ children ++ pending)
      ⟨counts.inherited + children.length, counts.nested + nested.length⟩

/-- The number of classes below a class. -/
def descendants (f : Forest) (i : NodeId) : Descendants :=
  countBelow f f.size [i] {}

end Forest

end Lineage
