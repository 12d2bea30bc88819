import Lineage.Proofs.Forest
import Mathlib.Data.List.Basic

/-!
# Depths

The walk that writes depths starts at the classes without a parent and takes the classes below
each class in turn.  Where all chains of parents end it writes the depth of every class, once, and
the depth of a class is the number of steps in its chain of parents (`depths_spec`,
`height_depth_build`), which is also one less than the length of its inheritance path
(`length_inheritancePath`).
-/

namespace Lineage.Forest

open Chain

variable {parent : NodeId → Option NodeId} {n : Nat} {pending : List (NodeId × Nat)}
  {done : List NodeId} {depths : Array Nat}

/-- The state of the walk: `pending` are the classes to write next, with their depths, and `done`
those that have been written. -/
structure Laid (parent : NodeId → Option NodeId) (n : Nat) (pending : List (NodeId × Nat))
    (done : List NodeId) (depths : Array Nat) : Prop where
  size : depths.size = n
  lt : ∀ i ∈ pending.map Prod.fst ++ done, i < n
  nodup : (pending.map Prod.fst ++ done).Nodup
  height : ∀ x ∈ pending, Height parent x.1 x.2
  written : ∀ i ∈ done, ∃ h, Height parent i h ∧ depths[i]? = some h
  /-- The walk has come to a class exactly if it is done with the parent of the class. -/
  reached : ∀ i < n, i ∈ pending.map Prod.fst ++ done ↔ ∀ p, parent i = some p → p ∈ done

namespace Laid

/-- Writing the depth of the next class. -/
theorem step {i d : Nat} (h : Laid parent n ((i, d) :: pending) done depths) :
    Laid parent n ((hangingBelow n parent i).map (fun j => (j, d + 1)) ++ pending) (i :: done)
      (depths.setIfInBounds i d) := by
  have hlt : i < n := h.lt i (by simp)
  have hheight : Height parent i d := h.height (i, d) (List.mem_cons_self ..)
  have hnodup := h.nodup
  rw [List.map_cons, List.cons_append, List.nodup_cons] at hnodup
  have hfresh : i ∉ done := fun hi => hnodup.1 (List.mem_append_right _ hi)
  have hfst : ((hangingBelow n parent i).map (fun j => (j, d + 1)) ++ pending).map Prod.fst ++
      (i :: done) = hangingBelow n parent i ++ (pending.map Prod.fst ++ i :: done) := by
    rw [List.map_append, List.map_map, List.append_assoc]
    congr 1
    exact List.map_id _
  -- the classes the walk had come to, with `i` moved to those that are done
  have hmem : ∀ j, j ∈ pending.map Prod.fst ++ i :: done ↔
      j ∈ ((i, d) :: pending).map Prod.fst ++ done := by
    intro j
    simp only [List.map_cons, List.mem_append, List.mem_cons]
    tauto
  refine ⟨by rw [Array.size_setIfInBounds]; exact h.size, fun j hj => ?_, ?_, ?_, ?_, ?_⟩
  · rw [hfst, List.mem_append, hmem] at hj
    rcases hj with hj | hj
    · exact (mem_hangingBelow.1 hj).1
    · exact h.lt j hj
  · rw [hfst]
    refine List.Nodup.append (nodup_hangingBelow n parent i) ?_ ?_
    · exact (List.perm_middle.nodup_iff).2 (List.nodup_cons.2 hnodup)
    · intro j hj hj'
      obtain ⟨hjn, hji⟩ := mem_hangingBelow.1 hj
      exact hfresh ((h.reached j hjn).1 ((hmem j).1 hj') i hji)
  · intro x hx
    rcases List.mem_append.1 hx with hx | hx
    · obtain ⟨j, hj, rfl⟩ := List.mem_map.1 hx
      exact .up (mem_hangingBelow.1 hj).2 hheight
    · exact h.height x (List.mem_cons_of_mem _ hx)
  · intro j hj
    by_cases hji : i = j
    · subst hji
      exact ⟨d, hheight, Array.getElem?_setIfInBounds_self_of_lt (by rw [h.size]; exact hlt)⟩
    · rw [Array.getElem?_setIfInBounds_ne hji]
      exact h.written j ((List.mem_cons.1 hj).resolve_left (Ne.symm hji))
  · intro j hj
    rw [hfst, List.mem_append, hmem, mem_hangingBelow, h.reached j hj]
    constructor
    · rintro (⟨_, hji⟩ | hdone) p hp
      · rw [hji] at hp
        obtain rfl := Option.some.inj hp
        exact List.mem_cons_self ..
      · exact List.mem_cons_of_mem _ (hdone p hp)
    · intro hdone
      by_cases hji : parent j = some i
      · exact Or.inl ⟨hj, hji⟩
      · refine Or.inr fun p hp => (List.mem_cons.1 (hdone p hp)).resolve_left ?_
        rintro rfl
        exact hji hp

/-- When nothing is pending, every class whose chain ends is done. -/
theorem mem_done (h : Laid parent n [] done depths) (hw : Within parent n) {i : NodeId}
    (hi : i < n) (hend : Ends parent i) : i ∈ done := by
  obtain ⟨m, hm⟩ := hend
  induction hm with
  | @top i htop =>
    have hreached := (h.reached i hi).2 fun p hp => by rw [htop] at hp; cases hp
    simpa using hreached
  | @up i j _ hij _ ih =>
    have hreached := (h.reached i hi).2 fun p hp => by
      rw [hij] at hp
      obtain rfl := Option.some.inj hp
      exact ih (hw i j hij).2
    simpa using hreached

/-- When as many classes are done as there are, every class is done. -/
theorem mem_done_of_length (h : Laid parent n pending done depths) (hlen : n ≤ done.length)
    {i : NodeId} (hi : i < n) : i ∈ done := by
  have hnodup : done.Nodup := h.nodup.of_append_right
  have hsub : done ⊆ List.range n := fun j hj =>
    List.mem_range.2 (h.lt j (List.mem_append_right _ hj))
  have hperm : done.Perm (List.range n) :=
    (hnodup.subperm hsub).perm_of_length_le (by rw [List.length_range]; exact hlen)
  exact hperm.mem_iff.2 (List.mem_range.2 hi)

end Laid

/-- **The walk writes all depths.**  The fuel suffices because each step is done with one more
class. -/
theorem layDepths_spec (hw : Within parent n) (hends : ∀ i, Ends parent i) (fuel : Nat) :
    ∀ (pending : List (NodeId × Nat)) (done : List NodeId) (depths : Array Nat),
      Laid parent n pending done depths → n ≤ done.length + fuel →
      ∀ i < n, ∃ h, Height parent i h ∧
        (layDepths (hangingBelow n parent) fuel pending depths)[i]? = some h := by
  induction fuel with
  | zero =>
    intro pending done depths h hfuel i hi
    rw [layDepths]
    exact h.written i (h.mem_done_of_length hfuel hi)
  | succ fuel ih =>
    intro pending done depths h hfuel i hi
    cases pending with
    | nil =>
      rw [layDepths]
      · exact h.written i (h.mem_done hw hi (hends i))
      · simp
    | cons x pending =>
      obtain ⟨j, d⟩ := x
      rw [layDepths]
      refine ih _ (j :: done) _ h.step ?_ i hi
      rw [List.length_cons]
      omega

/-- The walk starts at the classes without a parent. -/
theorem laid_start (parent : NodeId → Option NodeId) (n : Nat) :
    Laid parent n (((List.range n).filter fun i => (parent i).isNone).map fun i => (i, 0)) []
      (Array.replicate n 0) := by
  have hfst : (((List.range n).filter fun i => (parent i).isNone).map fun i => (i, 0)).map
      Prod.fst ++ [] = (List.range n).filter fun i => (parent i).isNone := by
    rw [List.append_nil, List.map_map]
    exact List.map_id _
  refine ⟨Array.size_replicate, fun i hi => ?_, ?_, ?_, ?_, fun i hi => ?_⟩
  · rw [hfst] at hi
    exact List.mem_range.1 (List.mem_filter.1 hi).1
  · rw [hfst]
    exact List.nodup_range.filter _
  · intro x hx
    obtain ⟨i, hi, rfl⟩ := List.mem_map.1 hx
    exact .top (Option.isNone_iff_eq_none.1 (List.mem_filter.1 hi).2)
  · intro i hi
    cases hi
  · rw [hfst, List.mem_filter, List.mem_range, and_iff_right hi, Option.isNone_iff_eq_none,
      Option.eq_none_iff_forall_ne_some]
    exact ⟨fun h p hp => absurd hp (h p), fun h p hp => absurd (h p hp) List.not_mem_nil⟩

/-- The depth of a class is the number of steps in its chain of parents. -/
theorem depths_spec {l : Links} (hw : Within l.parent? n) (hends : ∀ i, Ends l.parent? i)
    {i : NodeId} (hi : i < n) :
    ∃ h, Height l.parent? i h ∧ (Forest.depths n l)[i]? = some h :=
  layDepths_spec hw hends n _ [] _ (laid_start l.parent? n) (by simp) i hi

/-- The depth of a class of a built forest is the number of steps in its chain of parents. -/
theorem height_depth_build {ds : List Declaration} {i : NodeId} {node : Node}
    (hnode : (build ds).node? i = some node) : Height (build ds).parent? i node.depth := by
  set t := Table.ofList ds
  have hparent : (build ds).parent? = (Links.resolve t).1.parent? := funext fun _ => parent?_build
  have hnarrow : Narrows (Links.resolve t).1.parent? (Links.resolve t).1.above? :=
    fun i p hip => Links.above?_eq_some_iff.2 (Or.inl hip)
  have hi : i < t.size := by
    by_contra hi
    rw [node?_build_eq_none hi] at hnode
    cases hnode
  obtain ⟨d, hd, hdepth⟩ := depths_spec (hnarrow.within (Links.within_above?_resolve t))
    (fun i => hnarrow.ends (Links.ends_above?_resolve t i)) hi
  rw [node?_build hi] at hnode
  obtain rfl := Option.some.inj hnode
  rw [hparent, hdepth]
  exact hd

/-! ### Depths of classes -/

section Build

variable {f : Forest} {ds : List Declaration} {i p : NodeId} {node : Node}

/-- The inheritance depth of class `i`. -/
def depthOf (f : Forest) (i : NodeId) : Nat :=
  ((f.node? i).map (·.depth)).getD 0

theorem exists_node? (hi : i < f.size) : ∃ node, f.node? i = some node :=
  ⟨_, Array.getElem?_eq_getElem hi⟩

theorem lt_size_of_node? (hnode : f.node? i = some node) : i < f.size :=
  (Array.getElem?_eq_some_iff.1 hnode).1

theorem depthOf_eq (hnode : f.node? i = some node) : f.depthOf i = node.depth := by
  unfold depthOf
  rw [hnode]
  rfl

theorem container?_eq (hnode : f.node? i = some node) : f.container? i = node.container := by
  unfold container?
  rw [hnode]
  rfl

theorem height_depthOf (hi : i < (build ds).size) :
    Height (build ds).parent? i ((build ds).depthOf i) := by
  obtain ⟨node, hnode⟩ := exists_node? hi
  rw [depthOf_eq hnode]
  exact height_depth_build hnode

/-- A chain that ends has as many classes as it takes steps, if the fuel suffices. -/
theorem length_chain {step : NodeId → Option NodeId} {h : Nat} (hh : Height step i h) :
    ∀ {fuel : Nat}, h ≤ fuel → (chain step fuel i).length = h := by
  induction hh with
  | @top i htop =>
    intro fuel _
    cases fuel with
    | zero => rfl
    | succ fuel => simp [chain, htop]
  | @up i j h hij _ ih =>
    intro fuel hfuel
    obtain ⟨fuel, rfl⟩ : ∃ m, fuel = m + 1 := ⟨fuel - 1, by omega⟩
    simp [chain, hij, ih (show h ≤ fuel by omega)]

theorem narrows_parent?_build (ds : List Declaration) :
    Narrows (build ds).parent? (build ds).above? := by
  intro i p hip
  unfold above?
  rw [hip]
  rfl

/-- Parent links lead from the classes of a built forest to classes of the forest. -/
theorem within_parent?_build (ds : List Declaration) :
    Within (build ds).parent? (build ds).size :=
  (narrows_parent?_build ds).within (within_above?_build ds)

/-- The inheritance path of a class has one class more than the depth says. -/
theorem length_inheritancePath (hi : i < (build ds).size) :
    ((build ds).inheritancePath i).length = (build ds).depthOf i + 1 := by
  have hheight := height_depthOf hi
  have hlt := (within_parent?_build ds).height_lt hi hheight
  unfold inheritancePath ancestors
  rw [List.length_append, List.length_reverse, length_chain hheight hlt.le, List.length_singleton]

/-- A class is one step deeper than its parent. -/
theorem depthOf_of_parent? (hip : (build ds).parent? i = some p) (hi : i < (build ds).size)
    (hp : p < (build ds).size) : (build ds).depthOf i = (build ds).depthOf p + 1 :=
  (height_depthOf hi).unique (.up hip (height_depthOf hp))

theorem depthOf_eq_zero (hi : i < (build ds).size) (hip : (build ds).parent? i = none) :
    (build ds).depthOf i = 0 :=
  (height_depthOf hi).unique (.top hip)

/-- A class inside another one has depth 0. -/
theorem depthOf_of_container? (hi : i < (build ds).size)
    (hcontainer : (build ds).container? i ≠ none) : (build ds).depthOf i = 0 := by
  refine depthOf_eq_zero hi ?_
  rw [parent?_build]
  rw [container?_build] at hcontainer
  exact (Links.parent?_or_container?_resolve_eq_none _ i).resolve_right hcontainer

end Build

end Lineage.Forest
