import Lineage.Proofs.Preorder
import Lineage.Proofs.Tally
import Mathlib.Data.List.Count
import Mathlib.Data.List.Induction

/-!
# The census against the outline

The census walks a forest with a list of classes still to visit, and the outline draws it by
recursion; both come to the classes in the same order (`ofForest_eq_foldl`).  So everything that
the census counts and lists can be said of the lines of the outline (`describes_ofForest`).  That
the longest chains are as long as the greatest depth, although classes inside others take no part
in the search for chains, comes from the shape of the forest (`exists_tip_of_deepest`).
-/

namespace Lineage

namespace Forest

open Chain

variable {ds : List Declaration} {i : NodeId}

/-! ### Tips -/

/-- Class `i` is a tip if nothing contains it and nothing derives from it. -/
theorem isTip_iff (hi : i < (build ds).size) :
    (build ds).isTip i = true ↔
      (build ds).container? i = none ∧ ∀ j, (build ds).parent? j ≠ some i := by
  obtain ⟨n, hn⟩ := exists_node? hi
  have hchildren : n.children = (build ds).childrenOf i := by
    unfold childrenOf
    rw [hn]
    rfl
  rw [isTip_eq hn, container?_eq hn, Node.isTip, hchildren, Bool.and_eq_true,
    Option.isNone_iff_eq_none, List.isEmpty_iff, List.eq_nil_iff_forall_not_mem]
  simp only [mem_childrenOf_build, ne_eq]

/-- Some tip is as deep as the deepest classes.  If these have ancestors they are tips themselves;
if no class has any, a root is a tip. -/
theorem exists_tip_of_deepest (hi : i < (build ds).size)
    (hmax : ∀ j < (build ds).size, (build ds).depthOf j ≤ (build ds).depthOf i) :
    ∃ j < (build ds).size,
      (build ds).isTip j = true ∧ (build ds).depthOf j = (build ds).depthOf i := by
  -- a class that derives from one of the deepest would be deeper still
  have hleaf : ∀ {j}, j < (build ds).size → (build ds).depthOf j = (build ds).depthOf i →
      ∀ k, (build ds).parent? k ≠ some j := by
    intro j hj hdepth k hkj
    have hk : k < (build ds).size :=
      (within_above?_build ds k j (mem_below_build.1 (Or.inl (mem_childrenOf_build.2 hkj)))).1
    have hdeeper := depthOf_of_parent? hkj hk hj
    have hle := hmax k hk
    omega
  by_cases hzero : (build ds).depthOf i = 0
  · obtain ⟨r, hr, _⟩ := leads_root_build hi
    obtain ⟨hlt, habove⟩ := mem_roots_build.1 hr
    rw [above?, Option.or_eq_none_iff] at habove
    have hdepth : (build ds).depthOf r = (build ds).depthOf i := by
      rw [hzero]
      exact depthOf_eq_zero hlt habove.1
    exact ⟨r, hlt, (isTip_iff hlt).2 ⟨habove.2, hleaf hlt hdepth⟩, hdepth⟩
  · refine ⟨i, hi, (isTip_iff hi).2 ⟨?_, hleaf hi rfl⟩, rfl⟩
    by_contra hcontainer
    exact hzero (depthOf_of_container? hi hcontainer)

/-- The classes of the table, taken in any order, are as often of a kind as those of the forest. -/
theorem countP_of_perm {f : Forest} {ids : List NodeId} (hids : ids.Perm (List.range f.size))
    (q : Node → Bool) : ids.countP (fun i => (f.node? i).any q) = f.nodes.toList.countP q := by
  have hrange : ∀ nodes : List Node,
      (List.range nodes.length).countP (fun i => nodes[i]?.any q) = nodes.countP q := by
    intro nodes
    induction nodes with
    | nil => rfl
    | cons n nodes ih =>
      rw [List.length_cons, List.range_succ_eq_map, List.countP_cons, List.countP_map,
        List.countP_cons, ← ih]
      rfl
  have hnode : ∀ i, f.node? i = f.nodes.toList[i]? := fun i => Array.getElem?_toList.symm
  simp only [hnode]
  rw [hids.countP_eq, ← hrange]
  rfl

end Forest

namespace Census

open Outline Forest

variable {f : Forest} {ds : List Declaration} {c : Census} {i : NodeId} {seen : List NodeId}
  {siblings order : List (NodeId × Relation)}

/-- What the census says, in terms of the classes and of the lines of the outline. -/
structure Describes (f : Forest) (lines : List OutlineLine) (c : Census) : Prop where
  total : c.total = f.size ∧ c.total = lines.length
  /-- The classes that give the name of a container. -/
  nested : c.nested = f.declarations.countP (·.container.isSome)
  /-- Each class counts for its own modifier. -/
  modifier : ∀ m, c.countFor m = f.declarations.countP (·.modifier == m)
  modifiers : c.normal + c.abstract + c.sealed + c.static = c.total
  maxDepth : c.maxDepth = (f.nodes.toList.map (·.depth)).max?.getD 0
  chainLength : c.deepestChainLength = c.maxDepth
  /-- The first line whose class has the most lines. -/
  largest : c.largest = (lines.find? fun l =>
    lines.all fun u => decide (f.linesOf u.node ≤ f.linesOf l.node)).map (·.node)
  deep : c.deep = (lines.map (·.node)).filter fun i => 3 ≤ f.depthOf i
  /-- The chains down to the tips that are as deep as any class. -/
  deepestChains : c.deepestChains = ((lines.map (·.node)).filter fun i =>
    f.isTip i && f.depthOf i == c.maxDepth).map f.inheritancePath
  /-- No class is counted or listed twice. -/
  once : (lines.map (·.node)).Nodup

/-! ### The walk is in pre-order -/

/-- Counts class `i`. -/
def visit (f : Forest) (c : Census) (i : NodeId) : Census :=
  match f.node? i with
  | none => c
  | some n => count f c i n

theorem visit_eq {n : Node} (hn : f.node? i = some n) (c : Census) :
    visit f c i = count f c i n := by
  unfold visit
  rw [hn]

/-- The walk counts a class that it comes to for the first time, and puts the classes below it in
front of those still to visit. -/
theorem walk_cons (hi : i < f.size) (hfresh : i ∉ seen) (fuel : Nat) (pending : List NodeId)
    (c : Census) :
    walk f (fuel + 1) (i :: pending) seen c =
      walk f fuel ((below f i).map Prod.fst ++ pending) (i :: seen) (visit f c i) := by
  obtain ⟨n, hn⟩ := exists_node? hi
  have hseen : seen.contains i = false := by simpa using hfresh
  have hbelow : (below f i).map Prod.fst = n.children ++ n.nested := by
    rw [map_fst_below, childrenOf, nestedOf, hn]
    rfl
  rw [walk, hseen, hn, if_neg Bool.false_ne_true, visit_eq hn, hbelow]

/-- The walk visits a list of siblings and everything below them in pre-order, and then goes on
with what was pending. -/
theorem walk_preorder (h : Preorder f siblings order) :
    ∀ (fuel : Nat) (pending seen : List NodeId) (c : Census),
      (∀ i ∈ order.map Prod.fst, i < f.size) → (order.map Prod.fst).Nodup →
      (∀ i ∈ order.map Prod.fst, i ∉ seen) →
      walk f (order.length + fuel) (siblings.map Prod.fst ++ pending) seen c =
        walk f fuel pending ((order.map Prod.fst).reverse ++ seen)
          ((order.map Prod.fst).foldl (visit f) c) := by
  induction h with
  | nil => intro fuel pending seen c _ _ _; simp
  | @cons i relation rest under after _ _ ihdown ihnext =>
    intro fuel pending seen c hlt hnodup hfresh
    simp only [List.map_cons, List.map_append, List.nodup_cons, List.nodup_append,
      List.mem_cons, List.mem_append] at hlt hnodup hfresh
    obtain ⟨hi, hunder, hafter, hdisjoint⟩ := hnodup
    have hfuel : ((i, relation) :: (under ++ after)).length + fuel =
        under.length + (after.length + fuel) + 1 := by
      simp only [List.length_cons, List.length_append]
      omega
    have hfreshUnder : ∀ j ∈ under.map Prod.fst, j ∉ i :: seen := by
      intro j hj hmem
      rcases List.mem_cons.1 hmem with rfl | hmem
      · exact hi (Or.inl hj)
      · exact hfresh j (Or.inr (Or.inl hj)) hmem
    have hfreshAfter : ∀ j ∈ after.map Prod.fst,
        j ∉ (under.map Prod.fst).reverse ++ i :: seen := by
      intro j hj hmem
      rcases List.mem_append.1 hmem with hmem | hmem
      · exact hdisjoint j (List.mem_reverse.1 hmem) j hj rfl
      · rcases List.mem_cons.1 hmem with rfl | hmem
        · exact hi (Or.inr hj)
        · exact hfresh j (Or.inr (Or.inr hj)) hmem
    rw [hfuel, List.map_cons, List.cons_append,
      walk_cons (hlt i (Or.inl rfl)) (hfresh i (Or.inl rfl)),
      ihdown _ _ _ _ (fun j hj => hlt j (Or.inr (Or.inl hj))) hunder hfreshUnder,
      ihnext _ _ _ _ (fun j hj => hlt j (Or.inr (Or.inr hj))) hafter hfreshAfter]
    simp

/-- **The census counts the classes in the order of the outline.** -/
theorem ofForest_eq_foldl (ds : List Declaration) :
    ofForest (build ds) =
      ((lines (build ds)).map (·.node)).foldl (visit (build ds)) {} := by
  have hperm := nodes_lines_perm ds
  have horder := preorder_lines ds
  have hlength : ((lines (build ds)).map fun l => (l.node, l.relation)).length + 0 =
      (build ds).size := by
    simpa using hperm.length_eq
  have hwalk := walk_preorder horder 0 [] [] {}
    (by rw [map_fst_nodes]; exact fun i hi => List.mem_range.1 (hperm.mem_iff.1 hi))
    (by rw [map_fst_nodes]; exact hperm.nodup_iff.2 List.nodup_range) (by simp)
  rw [hlength, map_fst_nodes, walk] at hwalk
  rw [← hwalk]
  simp [ofForest, Function.comp_def]

/-! ### The whole census -/

/-- The census after visits to a list of classes of a built forest. -/
theorem tally_foldl (hseen : ∀ i ∈ seen, i < (build ds).size) :
    Tally (build ds) seen (seen.foldl (visit (build ds)) {}) := by
  induction seen using List.reverseRecOn with
  | nil => exact tally_nil _
  | append_singleton seen i ih =>
    rw [List.forall_mem_append, List.forall_mem_singleton] at hseen
    obtain ⟨n, hn⟩ := exists_node? hseen.2
    have hcontained : n.container.isSome → (build ds).depthOf i = 0 := by
      rw [← container?_eq hn, Option.isSome_iff_ne_none]
      exact depthOf_of_container? hseen.2
    rw [List.foldl_append, List.foldl_cons, List.foldl_nil, visit_eq hn]
    exact Tally.step hn hcontained (ih hseen.1) (length_inheritancePath hseen.2)

/-- Every declaration has one of the four modifiers. -/
theorem countP_modifiers (ds : List Declaration) :
    ds.countP (·.modifier == .normal) + ds.countP (·.modifier == .abstract) +
      ds.countP (·.modifier == .sealed) + ds.countP (·.modifier == .static) = ds.length := by
  induction ds with
  | nil => rfl
  | cons d ds ih =>
    simp only [List.countP_cons, List.length_cons]
    cases d.modifier <;> simp <;> omega

theorem mem_seen (hseen : seen.Perm (List.range (build ds).size)) :
    i ∈ seen ↔ i < (build ds).size := by
  rw [hseen.mem_iff, List.mem_range]

section Complete

variable (h : Tally (build ds) seen c) (hseen : seen.Perm (List.range (build ds).size))

include h hseen

/-- After visits to all classes, some class is as deep as the census says, if there is any. -/
theorem exists_deepest (hi : i < (build ds).size) :
    ∃ j < (build ds).size, (build ds).depthOf j = c.maxDepth := by
  rcases h.depth_mem with hzero | ⟨j, hj, hdepth⟩
  · have hle := h.depth_le i ((mem_seen hseen).2 hi)
    exact ⟨i, hi, by omega⟩
  · exact ⟨j, (mem_seen hseen).1 hj, hdepth⟩

/-- The census finds the greatest depth. -/
theorem maxDepth_eq : c.maxDepth = ((build ds).nodes.toList.map (·.depth)).max?.getD 0 := by
  have hmem : ∀ d, d ∈ (build ds).nodes.toList.map (·.depth) ↔
      ∃ i < (build ds).size, (build ds).depthOf i = d := by
    intro d
    rw [List.mem_map]
    constructor
    · rintro ⟨n, hn, rfl⟩
      obtain ⟨i, hi⟩ := List.getElem?_of_mem hn
      rw [Array.getElem?_toList] at hi
      exact ⟨i, lt_size_of_node? hi, depthOf_eq hi⟩
    · rintro ⟨i, hi, rfl⟩
      obtain ⟨n, hn⟩ := exists_node? hi
      exact ⟨n, Array.mem_toList_iff.2 (Array.mem_of_getElem? hn), (depthOf_eq hn).symm⟩
  cases hmax : ((build ds).nodes.toList.map (·.depth)).max? with
  | none =>
    rw [List.max?_eq_none_iff] at hmax
    rcases h.depth_mem with hzero | ⟨i, hi, hdepth⟩
    · exact hzero
    · have hnot := (hmem _).2 ⟨i, (mem_seen hseen).1 hi, hdepth⟩
      rw [hmax] at hnot
      cases hnot
  | some d =>
    obtain ⟨hd, hge⟩ := List.max?_eq_some_iff.1 hmax
    obtain ⟨i, hi, rfl⟩ := (hmem d).1 hd
    obtain ⟨j, hj, hdepth⟩ := exists_deepest h hseen hi
    have hle := h.depth_le i ((mem_seen hseen).2 hi)
    have hge := hge _ ((hmem _).2 ⟨j, hj, hdepth⟩)
    exact Nat.le_antisymm hge hle

/-- The longest chains are as long as the greatest depth. -/
theorem chainLength_eq : chainLength c.deepestChains = c.maxDepth := by
  by_cases hsize : 0 < (build ds).size
  · obtain ⟨i, hi, hdepth⟩ := exists_deepest h hseen hsize
    obtain ⟨j, hj, hjtip, hjdepth⟩ := exists_tip_of_deepest hi fun k hk => by
      rw [hdepth]
      exact h.depth_le k ((mem_seen hseen).2 hk)
    obtain ⟨k, hk, _, hkdepth⟩ := h.longest.exists_tip ((mem_seen hseen).2 hj) hjtip
    have hle := h.longest.le j ((mem_seen hseen).2 hj) hjtip
    have hge := h.depth_le k hk
    omega
  · have hnil : seen = [] := List.eq_nil_iff_forall_not_mem.2 fun i hi =>
      hsize (Nat.zero_lt_of_lt ((mem_seen hseen).1 hi))
    subst hnil
    have hchains := h.longest.eq
    rw [List.filter_nil, List.map_nil] at hchains
    rw [hchains]
    rcases h.depth_mem with hzero | ⟨i, hi, _⟩
    · exact hzero.symm
    · cases hi

end Complete

/-- **The census describes the outline.**  Its counts are those of all classes, its greatest depth
is the length of the longest chains, and the classes and chains that it lists are those of the
lines of the outline that qualify, in the order of the lines. -/
theorem describes_ofForest (ds : List Declaration) :
    Describes (build ds) (lines (build ds)) (ofForest (build ds)) := by
  have hseen := nodes_lines_perm ds
  have h : Tally (build ds) ((lines (build ds)).map (·.node)) (ofForest (build ds)) := by
    rw [ofForest_eq_foldl]
    exact tally_foldl fun i hi => List.mem_range.1 (hseen.mem_iff.1 hi)
  have hdeclarations : ∀ q : Declaration → Bool,
      (build ds).declarations.countP q = (build ds).nodes.toList.countP (q ·.declaration) :=
    fun q => List.countP_map
  have hmodifier : ∀ m, (ofForest (build ds)).countFor m =
      (build ds).declarations.countP (·.modifier == m) := by
    intro m
    rw [h.modifier m, countP_of_perm hseen, hdeclarations]
  have hsize : (build ds).declarations.length = (build ds).size := by
    simp [declarations, size]
  have htotal : (ofForest (build ds)).total = (build ds).size := by
    rw [h.total, hseen.length_eq, List.length_range]
  have hchain := chainLength_eq h hseen
  exact {
    total := ⟨htotal, by rw [h.total, List.length_map]⟩
    nested := by
      rw [h.nested, countP_of_perm hseen, hdeclarations]
      rfl
    modifier := hmodifier
    modifiers := by
      have hsum := countP_modifiers (build ds).declarations
      rw [← hmodifier, ← hmodifier, ← hmodifier, ← hmodifier, hsize] at hsum
      rw [htotal]
      exact hsum
    maxDepth := maxDepth_eq h hseen
    chainLength := hchain
    largest := by
      rw [h.largest.eq_find?, List.find?_map]
      simp only [List.all_map]
      rfl
    deep := h.deep
    deepestChains := by
      rw [← hchain]
      exact h.longest.eq
    once := hseen.nodup_iff.2 List.nodup_range }

end Census

end Lineage
