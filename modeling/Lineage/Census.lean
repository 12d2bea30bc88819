import Lineage.Outline

/-!
# The census of a forest

Counts over all classes of a forest, its largest class and its longest chains of inheritance,
gathered in one walk that keeps a list of the classes still to visit.
-/

namespace Lineage

/-- What a walk over a forest has counted. -/
structure Census where
  total : Nat := 0
  nested : Nat := 0
  normal : Nat := 0
  abstract : Nat := 0
  sealed : Nat := 0
  static : Nat := 0
  maxDepth : Nat := 0
  /-- The first class with the most lines. -/
  largest : Option NodeId := none
  /-- The classes with at least `Census.deepLevel` inheritance ancestors. -/
  deep : List NodeId := []
  /-- The longest inheritance chains, each from the top down. -/
  deepestChains : List (List NodeId) := []
  deriving DecidableEq, Repr, Inhabited

namespace Census

/-- From this depth on a class counts as deep. -/
def deepLevel : Nat := 3

/-- The count of one modifier. -/
def countFor (c : Census) : Modifier → Nat
  | .normal => c.normal
  | .abstract => c.abstract
  | .sealed => c.sealed
  | .static => c.static

/-- The number of links in the longest inheritance chain. -/
def deepestChainLength (c : Census) : Nat :=
  match c.deepestChains with
  | [] => 0
  | chain :: _ => chain.length - 1

/-- Counts the modifier of a class. -/
def countModifier (c : Census) : Modifier → Census
  | .normal => { c with normal := c.normal + 1 }
  | .abstract => { c with abstract := c.abstract + 1 }
  | .sealed => { c with sealed := c.sealed + 1 }
  | .static => { c with static := c.static + 1 }

/-- Keeps the class with the most lines, the earlier one of two that tie. -/
def countLines (f : Forest) (c : Census) (i : NodeId) (n : Node) : Census :=
  let best := c.largest.bind (fun j => (f.node? j).map (·.declaration.lines))
  if best.all (fun lines => lines < n.declaration.lines) then { c with largest := some i } else c

/-- Keeps the longest chains that end in a class without subclasses. -/
def countChain (f : Forest) (c : Census) (i : NodeId) (n : Node) : Census :=
  if !n.children.isEmpty then c
  else
    let path := f.inheritancePath i
    match c.deepestChains with
    | [] => { c with deepestChains := [path] }
    | _ :: _ =>
      if n.depth < c.deepestChainLength then c
      else if n.depth == c.deepestChainLength then
        { c with deepestChains := c.deepestChains ++ [path] }
      else { c with deepestChains := [path] }

/-- Counts the depth of a class that is not contained in another one. -/
def countDepth (f : Forest) (c : Census) (i : NodeId) (n : Node) : Census :=
  if n.container.isSome then c
  else
    let c := { c with
      maxDepth := max c.maxDepth n.depth
      deep := if deepLevel ≤ n.depth then c.deep ++ [i] else c.deep }
    countChain f c i n

/-- Counts one class. -/
def count (f : Forest) (c : Census) (i : NodeId) (n : Node) : Census :=
  let c := { c with
    total := c.total + 1
    nested := if n.declaration.isNested then c.nested + 1 else c.nested }
  countDepth f (countLines f (c.countModifier n.declaration.modifier) i n) i n

/-- Counts the classes of `pending` and everything below them, each class once. -/
def walk (f : Forest) : Nat → List NodeId → List NodeId → Census → Census
  | 0, _, _, c => c
  | _, [], _, c => c
  | fuel + 1, i :: pending, seen, c =>
    if seen.contains i then walk f fuel pending seen c
    else match f.node? i with
      | none => walk f fuel pending seen c
      | some n => walk f fuel (n.children ++ n.nested ++ pending) (i :: seen) (count f c i n)

/-- The census of a forest. -/
def ofForest (f : Forest) : Census :=
  walk f f.size f.roots [] {}

/-! ### The report -/

/-- The census in words, one fact on each line. -/
def summary (f : Forest) (c : Census) : List String :=
  let largest := match c.largest with
    | none => []
    | some i =>
      let lines := ((f.node? i).map (·.declaration.lines)).getD 0
      ["Largest: " ++ f.qualifiedName i ++ " (" ++ toString lines ++ " lines)"]
  let deep := if c.deep.isEmpty then [] else
    ["Deep inheritance (depth >= " ++ toString deepLevel ++ "): " ++
      ", ".intercalate (c.deep.map f.qualifiedName)]
  let chains := if c.deepestChainLength == 0 then [] else
    "Deepest chains:" :: c.deepestChains.map (fun chain =>
      "  " ++ " -> ".intercalate (chain.map f.qualifiedName))
  ["Classes: " ++ toString c.total ++ " (" ++ toString c.nested ++ " nested)",
   "Normal: " ++ toString c.normal ++ "  Abstract: " ++ toString c.abstract ++
     "  Sealed: " ++ toString c.sealed ++ "  Static: " ++ toString c.static,
   "Max inheritance depth: " ++ toString c.maxDepth] ++ largest ++ deep ++ chains

/-- The outline, an empty line and the summary, each line ended by a newline. -/
def report (f : Forest) (outline : List OutlineLine) (c : Census) : String :=
  String.join ((outline.map (·.plain) ++ "" :: c.summary f).map (· ++ "\n"))

end Census

end Lineage
