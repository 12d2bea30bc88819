import Lineage.Census
import Lineage.Proofs.Forest

/-!
# Renaming the classes of a forest

Two forests that differ only in the numbers of their classes (`Renames`) have the same outline and
the same census, up to these numbers (`Renames.lines`, `Renames.ofForest`).  The report shows
names and no numbers, so both have the same report (`Renames.report`).
-/

namespace Lineage

variable {σ : NodeId → NodeId} {f g : Forest}

/-- A class with the numbers of the classes around it renamed. -/
def Node.rename (σ : NodeId → NodeId) (n : Node) : Node :=
  { n with
    parent := n.parent.map σ
    container := n.container.map σ
    children := n.children.map σ
    nested := n.nested.map σ }

/-- A line with the number of its class renamed. -/
def OutlineLine.rename (σ : NodeId → NodeId) (l : OutlineLine) : OutlineLine :=
  { l with node := σ l.node }

/-- A census with the numbers of its classes renamed. -/
def Census.rename (σ : NodeId → NodeId) (c : Census) : Census :=
  { c with
    largest := c.largest.map σ
    deep := c.deep.map σ
    deepestChains := c.deepestChains.map (List.map σ) }

/-- Renaming by `σ` turns the forest `f` into the forest `g`. -/
structure Renames (σ : NodeId → NodeId) (f g : Forest) : Prop where
  injective : Function.Injective σ
  size : g.size = f.size
  roots : g.roots = f.roots.map σ
  node : ∀ i, g.node? (σ i) = (f.node? i).map (Node.rename σ)

namespace Renames

/-! ### Looking up -/

theorem parent? (h : Renames σ f g) (i : NodeId) : g.parent? (σ i) = (f.parent? i).map σ := by
  unfold Forest.parent?
  rw [h.node i]
  cases f.node? i <;> rfl

theorem childrenOf (h : Renames σ f g) (i : NodeId) :
    g.childrenOf (σ i) = (f.childrenOf i).map σ := by
  unfold Forest.childrenOf
  rw [h.node i]
  cases f.node? i <;> rfl

theorem nestedOf (h : Renames σ f g) (i : NodeId) : g.nestedOf (σ i) = (f.nestedOf i).map σ := by
  unfold Forest.nestedOf
  rw [h.node i]
  cases f.node? i <;> rfl

theorem declaration? (h : Renames σ f g) (i : NodeId) :
    (g.node? (σ i)).map (·.declaration) = (f.node? i).map (·.declaration) := by
  rw [h.node i]
  cases f.node? i <;> rfl

theorem qualifiedName (h : Renames σ f g) (i : NodeId) :
    g.qualifiedName (σ i) = f.qualifiedName i := by
  unfold Forest.qualifiedName
  rw [h.node i]
  cases f.node? i <;> rfl

theorem lines? (h : Renames σ f g) (i : NodeId) :
    (g.node? (σ i)).map (·.declaration.lines) = (f.node? i).map (·.declaration.lines) := by
  rw [h.node i]
  cases f.node? i <;> rfl

theorem chain (h : Renames σ f g) (fuel : Nat) :
    ∀ i, Forest.chain g.parent? fuel (σ i) = (Forest.chain f.parent? fuel i).map σ := by
  induction fuel with
  | zero => exact fun i => rfl
  | succ fuel ih =>
    intro i
    rw [Forest.chain, Forest.chain, h.parent? i]
    cases f.parent? i with
    | none => rfl
    | some p =>
      show σ p :: Forest.chain g.parent? fuel (σ p) = _
      rw [ih p]
      rfl

theorem inheritancePath (h : Renames σ f g) (i : NodeId) :
    g.inheritancePath (σ i) = (f.inheritancePath i).map σ := by
  unfold Forest.inheritancePath Forest.ancestors
  rw [h.size, h.chain, List.map_append, List.map_reverse]
  rfl

/-! ### The outline -/

theorem line (h : Renames σ f g) (i : NodeId) (relation : Relation) (rails : String) :
    Outline.line g (σ i) relation rails = (Outline.line f i relation rails).rename σ := by
  unfold Outline.line
  rw [h.declaration? i]
  rfl

theorem below (h : Renames σ f g) (i : NodeId) :
    Outline.below g (σ i) = (Outline.below f i).map (Prod.map σ id) := by
  unfold Outline.below
  rw [h.childrenOf i, h.nestedOf i]
  simp [Function.comp_def]

/-- Siblings are drawn alike if what is below them is. -/
theorem siblings (h : Renames σ f g) {draw draw' : NodeId → String → List OutlineLine}
    (hdraw : ∀ i indent, draw' (σ i) indent = (draw i indent).map (OutlineLine.rename σ))
    (indent : String) (below : List (NodeId × Relation)) :
    Outline.siblings g draw' indent (below.map (Prod.map σ id)) =
      (Outline.siblings f draw indent below).map (OutlineLine.rename σ) := by
  induction below with
  | nil => rfl
  | cons x rest ih =>
    obtain ⟨i, relation⟩ := x
    rw [List.map_cons, Prod.map_apply, id_eq, Outline.siblings, Outline.siblings, ih,
      List.isEmpty_map, h.line i, hdraw i, List.map_cons, List.map_append]

theorem descent (h : Renames σ f g) (fuel : Nat) :
    ∀ i indent, Outline.descent g fuel (σ i) indent =
      (Outline.descent f fuel i indent).map (OutlineLine.rename σ) := by
  induction fuel with
  | zero => exact fun i indent => rfl
  | succ fuel ih =>
    intro i indent
    rw [Outline.descent, Outline.descent, h.below i]
    exact h.siblings ih indent _

/-- The outline of a renamed forest. -/
theorem lines (h : Renames σ f g) :
    Outline.lines g = (Outline.lines f).map (OutlineLine.rename σ) := by
  have hsubtree : ∀ i, Outline.subtree g (σ i) =
      (Outline.subtree f i).map (OutlineLine.rename σ) := by
    intro i
    rw [Outline.subtree, Outline.subtree, h.line i, h.size, h.descent, List.map_cons]
  unfold Outline.lines
  rw [h.roots, List.flatMap_map, List.map_flatMap]
  exact List.flatMap_congr fun i _ => hsubtree i

/-- The outlines have the same text. -/
theorem plain_lines (h : Renames σ f g) :
    (Outline.lines g).map (·.plain) = (Outline.lines f).map (·.plain) := by
  rw [h.lines, List.map_map]
  rfl

/-! ### The census -/

open Census

theorem countModifier_rename (c : Census) (m : Modifier) :
    (c.rename σ).countModifier m = (c.countModifier m).rename σ := by
  cases m <;> rfl

theorem countLines (h : Renames σ f g) (c : Census) (i : NodeId) (n : Node) :
    Census.countLines g (c.rename σ) (σ i) (n.rename σ) =
      (Census.countLines f c i n).rename σ := by
  have hbest : (c.rename σ).largest.bind (fun j => (g.node? j).map (·.declaration.lines)) =
      c.largest.bind (fun j => (f.node? j).map (·.declaration.lines)) := by
    unfold Census.rename
    cases c.largest with
    | none => rfl
    | some j => exact h.lines? j
  unfold Census.countLines
  rw [hbest]
  dsimp only
  rw [apply_ite (Census.rename σ)]
  rfl

theorem deepestChainLength_rename (c : Census) :
    (c.rename σ).deepestChainLength = c.deepestChainLength := by
  unfold Census.deepestChainLength Census.rename
  cases c.deepestChains with
  | nil => rfl
  | cons chain rest => simp

theorem countChain (h : Renames σ f g) (c : Census) (i : NodeId) (n : Node) :
    Census.countChain g (c.rename σ) (σ i) (n.rename σ) =
      (Census.countChain f c i n).rename σ := by
  have hleaf : (n.rename σ).children.isEmpty = n.children.isEmpty := List.isEmpty_map
  unfold Census.countChain
  rw [hleaf, deepestChainLength_rename, h.inheritancePath i, apply_ite (Census.rename σ)]
  congr 1
  dsimp only
  -- the first chain is kept as it is, a later one only if it is long enough
  cases hc : c.deepestChains with
  | nil =>
    have hc' : (c.rename σ).deepestChains = [] := by simp [Census.rename, hc]
    rw [hc']
    rfl
  | cons chain rest =>
    have hc' : (c.rename σ).deepestChains = chain.map σ :: rest.map (List.map σ) := by
      simp [Census.rename, hc]
    rw [hc']
    dsimp only
    rw [apply_ite (Census.rename σ), apply_ite (Census.rename σ)]
    simp [Census.rename, Node.rename]

theorem countDepth (h : Renames σ f g) (c : Census) (i : NodeId) (n : Node) :
    Census.countDepth g (c.rename σ) (σ i) (n.rename σ) =
      (Census.countDepth f c i n).rename σ := by
  have hcontainer : (n.rename σ).container.isSome = n.container.isSome := Option.isSome_map
  unfold Census.countDepth
  rw [hcontainer, apply_ite (Census.rename σ)]
  congr 1
  dsimp only
  rw [← h.countChain]
  congr 1
  unfold Census.rename
  dsimp only
  rw [apply_ite (List.map σ), List.map_append, List.map_singleton]
  rfl

theorem count (h : Renames σ f g) (c : Census) (i : NodeId) (n : Node) :
    Census.count g (c.rename σ) (σ i) (n.rename σ) = (Census.count f c i n).rename σ := by
  unfold Census.count
  rw [← h.countDepth, ← h.countLines, ← countModifier_rename]
  rfl

/-- The walk meets the classes in the same order; as the renaming is injective, it also finds the
same classes already seen. -/
theorem walk (h : Renames σ f g) (fuel : Nat) :
    ∀ (pending seen : List NodeId) (c : Census),
      Census.walk g fuel (pending.map σ) (seen.map σ) (c.rename σ) =
        (Census.walk f fuel pending seen c).rename σ := by
  induction fuel with
  | zero =>
    intro pending seen c
    rw [Census.walk, Census.walk]
  | succ fuel ih =>
    intro pending seen c
    cases pending with
    | nil => rfl
    | cons i pending =>
      have hseen : (seen.map σ).contains (σ i) = seen.contains i := by
        rw [Bool.eq_iff_iff, List.contains_iff_mem, List.contains_iff_mem,
          List.mem_map_of_injective h.injective]
      rw [List.map_cons, Census.walk, Census.walk, hseen, h.node i]
      split_ifs
      · exact ih pending seen c
      · cases f.node? i with
        | none => exact ih pending seen c
        | some n =>
          rw [← ih, List.map_append, List.map_append, ← h.count]
          rfl

/-- The census of a renamed forest. -/
theorem ofForest (h : Renames σ f g) : Census.ofForest g = (Census.ofForest f).rename σ := by
  unfold Census.ofForest
  rw [h.size, h.roots]
  exact h.walk f.size f.roots [] {}

/-- The census of a renamed forest reads the same. -/
theorem summary (h : Renames σ f g) (c : Census) : (c.rename σ).summary g = c.summary f := by
  have hnames : ∀ ids : List NodeId, (ids.map σ).map g.qualifiedName = ids.map f.qualifiedName := by
    intro ids
    rw [List.map_map]
    exact List.map_congr_left fun i _ => h.qualifiedName i
  have hchains : (c.deepestChains.map (List.map σ)).map (fun chain =>
      "  " ++ " -> ".intercalate (chain.map g.qualifiedName)) =
      c.deepestChains.map (fun chain => "  " ++ " -> ".intercalate (chain.map f.qualifiedName)) := by
    rw [List.map_map]
    refine List.map_congr_left fun chain _ => ?_
    show "  " ++ " -> ".intercalate ((chain.map σ).map g.qualifiedName) = _
    rw [hnames]
  have hempty : (c.rename σ).deep.isEmpty = c.deep.isEmpty := List.isEmpty_map
  unfold Census.summary
  rw [deepestChainLength_rename, hempty]
  dsimp only [Census.rename]
  rw [hchains, hnames]
  cases c.largest with
  | none => rfl
  | some i => simp only [Option.map_some, h.qualifiedName i, h.lines? i]

/-- **A renamed forest has the same report.** -/
theorem report (h : Renames σ f g) :
    Census.report g (Outline.lines g) (Census.ofForest g) =
      Census.report f (Outline.lines f) (Census.ofForest f) := by
  unfold Census.report
  rw [h.plain_lines, h.ofForest, h.summary]

end Renames

end Lineage
