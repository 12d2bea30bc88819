import Lineage.Proofs.Depth
import Mathlib.Data.List.Nodup

/-!
# Ancestors

The ancestors of a class are read off the chain of its parents, and its depth was written by a walk
down from the classes without a parent.  Both speak of the same links: a class has as many ancestors
as its depth says, and the way from its topmost ancestor down to it goes through the depths 0, 1, 2
and so on (`graded_build`).

The search for ancestors is given a number of steps, and no chain of a built forest needs more of
them (`ancestors_of_parent?`).  So the path of a class is the path of its parent with the class at
the end (`inheritancePath_of_parent?`), and what is said of paths follows by going up along the chain
of parents (`parent_induction`).
-/

namespace Lineage.Forest

open Chain

variable {f : Forest} {ds : List Declaration} {i p : NodeId}

/-- Depths, ancestors and inheritance paths follow the links to parents. -/
structure Graded (f : Forest) : Prop where
  /-- Going up from a class ends, after as many steps as its depth says. -/
  ends : ∀ i, Height f.parent? i (f.depthOf i)
  /-- A class has as many ancestors as its depth says. -/
  length_ancestors : ∀ i, (f.ancestors i).length = f.depthOf i
  /-- The classes of depth 0 are those without a parent. -/
  depth_eq_zero : ∀ i, f.depthOf i = 0 ↔ f.parent? i = none
  /-- Any other class is one step deeper than its parent. -/
  depth_of_parent : ∀ i p, f.parent? i = some p → f.depthOf i = f.depthOf p + 1
  /-- A class inside another one has depth 0. -/
  depth_of_container : ∀ i c, f.container? i = some c → f.depthOf i = 0
  /-- The inheritance path of a class starts at a class without a parent. -/
  path_head : ∀ i, ∃ r, (f.inheritancePath i).head? = some r ∧ f.parent? r = none
  /-- It ends at the class. -/
  path_last : ∀ i, (f.inheritancePath i).getLast? = some i
  /-- It goes down one link to a parent at each step. -/
  path_steps : ∀ i, (f.inheritancePath i).IsChain fun p j => f.parent? j = some p
  /-- It comes to no class twice. -/
  path_nodup : ∀ i, (f.inheritancePath i).Nodup
  /-- The depths along it are 0, 1 and so on up to the depth of the class. -/
  path_depths : ∀ i, (f.inheritancePath i).map f.depthOf = List.range (f.depthOf i + 1)

/-! ### Going up to parents -/

/-- What holds of the classes without a parent, and of a class if it holds of its parent, holds of
every class. -/
theorem parent_induction (ds : List Declaration) {P : NodeId → Prop}
    (top : ∀ i, (build ds).parent? i = none → P i)
    (up : ∀ i p, (build ds).parent? i = some p → P p → P i) (i : NodeId) : P i := by
  obtain ⟨n, hn⟩ := (narrows_parent?_build ds).ends (ends_above?_build ds i)
  induction hn with
  | top htop => exact top _ htop
  | up hip _ ih => exact up _ _ hip ih

/-- A place outside the table has no parent and depth 0, like a root. -/
theorem height_parent?_build (ds : List Declaration) (i : NodeId) :
    Height (build ds).parent? i ((build ds).depthOf i) := by
  by_cases hi : i < (build ds).size
  · exact height_depthOf hi
  · have hnode : (build ds).node? i = none := by
      rw [size_build] at hi
      exact node?_build_eq_none hi
    have hdepth : (build ds).depthOf i = 0 := by
      unfold depthOf
      rw [hnode]
      rfl
    rw [hdepth]
    refine .top ?_
    unfold parent?
    rw [hnode]
    rfl

/-- The chain of parents of a class is not longer than the search for ancestors. -/
theorem depthOf_le_size (ds : List Declaration) (i : NodeId) :
    (build ds).depthOf i ≤ (build ds).size := by
  have hheight := height_parent?_build ds i
  cases hparent : (build ds).parent? i with
  | none =>
    have hzero := hheight.unique (.top hparent)
    omega
  | some p =>
    have hi := (within_parent?_build ds i p hparent).1
    exact ((within_parent?_build ds).height_lt hi hheight).le

/-- More fuel than a chain has steps makes no difference. -/
theorem chain_eq_of_height {step : NodeId → Option NodeId} {h : Nat} (hh : Height step i h) :
    ∀ {fuel more : Nat}, h ≤ fuel → h ≤ more → chain step fuel i = chain step more i := by
  induction hh with
  | @top i htop =>
    intro fuel more _ _
    have hnil : ∀ n, chain step n i = [] := fun n => by cases n <;> simp [chain, htop]
    rw [hnil fuel, hnil more]
  | @up i j h hij _ ih =>
    intro fuel more hfuel hmore
    obtain ⟨fuel, rfl⟩ : ∃ m, fuel = m + 1 := ⟨fuel - 1, by omega⟩
    obtain ⟨more, rfl⟩ : ∃ m, more = m + 1 := ⟨more - 1, by omega⟩
    have hnext := ih (show h ≤ fuel by omega) (show h ≤ more by omega)
    simp only [chain, hij, hnext]

theorem ancestors_of_none (hi : (build ds).parent? i = none) : (build ds).ancestors i = [] := by
  unfold ancestors
  cases (build ds).size with
  | zero => rfl
  | succ n => simp only [chain, hi]

/-- The ancestors of a class are its parent and the ancestors of its parent. -/
theorem ancestors_of_parent? (hip : (build ds).parent? i = some p) :
    (build ds).ancestors i = p :: (build ds).ancestors p := by
  have hheight := height_parent?_build ds p
  have hdepth := (height_parent?_build ds i).unique (.up hip hheight)
  have hle := depthOf_le_size ds i
  -- one step is used up, and the chain from the parent has one step less
  have hshort : chain (build ds).parent? (build ds).size p =
      chain (build ds).parent? ((build ds).size - 1) p :=
    chain_eq_of_height hheight (by omega) (by omega)
  unfold ancestors
  rw [hshort]
  obtain ⟨n, hn⟩ : ∃ n, (build ds).size = n + 1 := ⟨(build ds).size - 1, by omega⟩
  rw [hn, Nat.add_sub_cancel]
  simp only [chain, hip]

/-! ### The path down to a class -/

theorem inheritancePath_of_none (hi : (build ds).parent? i = none) :
    (build ds).inheritancePath i = [i] := by
  unfold inheritancePath
  rw [ancestors_of_none hi]
  rfl

/-- The path to a class is the path to its parent, and then the class. -/
theorem inheritancePath_of_parent? (hip : (build ds).parent? i = some p) :
    (build ds).inheritancePath i = (build ds).inheritancePath p ++ [i] := by
  unfold inheritancePath
  rw [ancestors_of_parent? hip, List.reverse_cons]

theorem getLast?_inheritancePath (f : Forest) (i : NodeId) :
    (f.inheritancePath i).getLast? = some i := by
  unfold inheritancePath
  rw [List.getLast?_append]
  rfl

/-- The path to a class starts at a class without a parent. -/
theorem exists_head?_inheritancePath (ds : List Declaration) (i : NodeId) :
    ∃ r, ((build ds).inheritancePath i).head? = some r ∧ (build ds).parent? r = none := by
  induction i using parent_induction ds with
  | top i htop => exact ⟨i, by rw [inheritancePath_of_none htop]; rfl, htop⟩
  | up i p hip ih =>
    obtain ⟨r, hr, htop⟩ := ih
    refine ⟨r, ?_, htop⟩
    rw [inheritancePath_of_parent? hip, List.head?_append, hr]
    rfl

/-- The path to a class goes down one link at each step. -/
theorem isChain_inheritancePath (ds : List Declaration) (i : NodeId) :
    ((build ds).inheritancePath i).IsChain fun p j => (build ds).parent? j = some p := by
  induction i using parent_induction ds with
  | top i htop =>
    rw [inheritancePath_of_none htop]
    exact List.isChain_singleton i
  | up i p hip ih =>
    rw [inheritancePath_of_parent? hip]
    -- the one new step goes from the parent, the last class of its own path
    refine ih.append (List.isChain_singleton i) ?_
    intro q hq j hj
    rw [getLast?_inheritancePath] at hq
    obtain rfl := Option.some.inj hq
    obtain rfl := Option.some.inj hj
    exact hip

/-- The path to a class goes through the depths in order. -/
theorem map_depthOf_inheritancePath (ds : List Declaration) (i : NodeId) :
    ((build ds).inheritancePath i).map (build ds).depthOf =
      List.range ((build ds).depthOf i + 1) := by
  induction i using parent_induction ds with
  | top i htop =>
    have hzero := (height_parent?_build ds i).unique (.top htop)
    rw [inheritancePath_of_none htop, List.map_singleton, hzero]
    rfl
  | up i p hip ih =>
    have hdepth := (height_parent?_build ds i).unique (.up hip (height_parent?_build ds p))
    rw [inheritancePath_of_parent? hip, List.map_append, ih, List.map_singleton, hdepth,
      List.range_succ (n := (build ds).depthOf p + 1)]

/-- **Depths, ancestors and paths agree in every built forest**, whatever links were refused or cut
to make it. -/
theorem graded_build (ds : List Declaration) : (build ds).Graded where
  ends := height_parent?_build ds
  length_ancestors i := length_chain (height_parent?_build ds i) (depthOf_le_size ds i)
  depth_eq_zero i := by
    constructor
    · intro hzero
      have hheight := height_parent?_build ds i
      rw [hzero] at hheight
      cases hheight with
      | top htop => exact htop
    · intro htop
      exact (height_parent?_build ds i).unique (.top htop)
  depth_of_parent i p hip :=
    (height_parent?_build ds i).unique (.up hip (height_parent?_build ds p))
  depth_of_container i c hic := by
    have hone := Links.parent?_or_container?_resolve_eq_none (Table.ofList ds) i
    rw [← parent?_build, ← container?_build, hic] at hone
    exact (height_parent?_build ds i).unique (.top (hone.resolve_right (by simp)))
  path_head := exists_head?_inheritancePath ds
  path_last := getLast?_inheritancePath (build ds)
  path_steps := isChain_inheritancePath ds
  path_nodup i := by
    -- no two classes of the path have one depth
    refine List.Nodup.of_map (build ds).depthOf ?_
    rw [map_depthOf_inheritancePath]
    exact List.nodup_range
  path_depths := map_depthOf_inheritancePath ds

end Lineage.Forest
