import Lineage.Browser.Details
import Lineage.Proofs.Excerpt
import Mathlib.Algebra.Ring.Nat

/-!
# The classes below a class

The number of classes below a class is added up by a walk with a list of classes still to visit.  It
takes them in another order than the outline, but comes to the same classes (`countBelow_eq`), so its
counts are those of the lines below the class: one for each link, by the kind of the link
(`descendants_eq`).  From this the counts are those of the outline of the class, of the panel about
it (`counted_build`), and of the lines behind its own line in the outline of the forest
(`embeds_lines`).
-/

namespace Lineage

namespace Outline

open Chain Forest

variable {f : Forest} {ds : List Declaration} {i : NodeId} {siblings order : List (NodeId × Relation)}

/-! ### Counting -/

/-- **The walk adds up the classes below all classes of a pre-order.**  It goes through the classes
inside a class before those that derive from it, so what it has still to visit is in a pre-order of
its own, of the same classes. -/
theorem countBelow_eq (fuel : Nat) :
    ∀ {siblings order : List (NodeId × Relation)} (counts : Descendants),
      Preorder f siblings order → order.length ≤ fuel →
      countBelow f fuel (siblings.map Prod.fst) counts =
        ⟨counts.inherited + (order.map fun x => (f.childrenOf x.1).length).sum,
          counts.nested + (order.map fun x => (f.nestedOf x.1).length).sum⟩ := by
  induction fuel with
  | zero =>
    intro siblings order counts h hfuel
    obtain rfl := List.length_eq_zero_iff.1 (Nat.le_zero.1 hfuel)
    cases h
    rfl
  | succ fuel ih =>
    intro siblings order counts h hfuel
    cases h with
    | nil => rfl
    | @cons i relation rest under after down next =>
      obtain ⟨children, nested, rfl, hchildren, hnested⟩ := down.split
      -- what is left to visit is a pre-order of the same classes, with the inner classes in front
      have hnext := hnested.append (hchildren.append next)
      have hperm : (nested ++ (children ++ after)).Perm (children ++ nested ++ after) := by
        rw [← List.append_assoc]
        exact List.perm_append_comm.append_right after
      have hpending : ((f.nestedOf i).map (fun j => (j, Relation.nested)) ++
          ((f.childrenOf i).map (fun j => (j, Relation.inherits)) ++ rest)).map Prod.fst =
          f.nestedOf i ++ f.childrenOf i ++ rest.map Prod.fst := by
        simp [Function.comp_def]
      have hlength := hperm.length_eq
      have hcounts := ih ⟨counts.inherited + (f.childrenOf i).length,
        counts.nested + (f.nestedOf i).length⟩ hnext (by simp at hfuel hlength ⊢; omega)
      rw [hpending, (hperm.map _).sum_eq, (hperm.map _).sum_eq] at hcounts
      rw [List.map_cons, countBelow, hcounts, List.map_cons, List.map_cons, List.sum_cons,
        List.sum_cons, Nat.add_assoc, Nat.add_assoc]

/-- How many classes stand directly below a class, by the kind of the link. -/
theorem countP_below (f : Forest) (p : NodeId) :
    (below f p).countP (·.2 == .inherits) = (f.childrenOf p).length ∧
      (below f p).countP (·.2 == .nested) = (f.nestedOf p).length := by
  unfold below
  simp only [List.countP_append, List.countP_map]
  constructor
  · rw [List.countP_eq_length.2 (by simp), List.countP_eq_zero.2 (by simp), Nat.add_zero]
  · rw [List.countP_eq_zero.2 (by simp), List.countP_eq_length.2 (by simp), Nat.zero_add]

/-- The lists below the classes of a pre-order hold its classes, but for the siblings it starts
from. -/
theorem countP_add_sum (h : Preorder f siblings order) (q : NodeId × Relation → Bool) :
    order.countP q = siblings.countP q + (order.map fun x => (below f x.1).countP q).sum := by
  rw [h.perm_below.countP_eq, List.countP_append, List.countP_flatMap]
  rfl

/-- **The counts below a class are those of the classes of its pre-order**, by the kind of the last
link to them. -/
theorem descendants_eq (h : Preorder f (below f i) order) (hlength : order.length < f.size) :
    f.descendants i =
      ⟨order.countP (·.2 == .inherits), order.countP (·.2 == .nested)⟩ := by
  -- the walk starts from the class itself, which stands in front of what is below it
  have hall : Preorder f [(i, .root)] ((i, .root) :: (order ++ [])) := .cons h .nil
  rw [List.append_nil] at hall
  have hcounts := countBelow_eq f.size {} hall (by rw [List.length_cons]; omega)
  rw [countP_add_sum h, countP_add_sum h, (countP_below f i).1, (countP_below f i).2]
  simp only [(countP_below f _).1, (countP_below f _).2]
  refine hcounts.trans ?_
  simp

/-! ### The lines below a class -/

/-- Every class has a line. -/
theorem exists_line (hi : i < (build ds).size) :
    ∃ (n : Nat) (l : OutlineLine), (lines (build ds))[n]? = some l ∧ l.node = i := by
  have hmem : i ∈ (lines (build ds)).map (·.node) :=
    (nodes_lines_perm ds).mem_iff.2 (List.mem_range.2 hi)
  obtain ⟨l, hl, rfl⟩ := List.mem_map.1 hmem
  obtain ⟨n, hn⟩ := List.getElem?_of_mem hl
  exact ⟨n, l, hn, rfl⟩

/-- There are fewer lines below a class than classes: they all stand behind its own line. -/
theorem length_descent_lt (hi : i < (build ds).size) :
    (descent (build ds) (build ds).size i "").length < (build ds).size := by
  obtain ⟨n, l, hn, rfl⟩ := exists_line hi
  obtain ⟨indent, after, _, hdrop⟩ := exists_drop_lines hn
  have hlength := congrArg List.length hdrop
  have hsize := (nodes_lines_perm ds).length_eq
  obtain ⟨hlt, _⟩ := List.getElem?_eq_some_iff.1 hn
  simp only [List.length_drop, List.length_append, List.length_map, List.length_range]
    at hlength hsize
  omega

/-- The lines below a class, as classes with the kinds of their links. -/
theorem preorder_descent (hi : i < (build ds).size) :
    Preorder (build ds) (below (build ds) i)
      ((descent (build ds) (build ds).size i "").map fun l => (l.node, l.relation)) :=
  (draws_descent hi "").preorder

theorem descendants_build (hi : i < (build ds).size) :
    (build ds).descendants i =
      ⟨(descent (build ds) (build ds).size i "").countP (·.relation == .inherits),
        (descent (build ds) (build ds).size i "").countP (·.relation == .nested)⟩ := by
  rw [descendants_eq (preorder_descent hi)
    (by rw [List.length_map]; exact length_descent_lt hi), List.countP_map, List.countP_map]
  rfl

/-- Below a class there are no roots. -/
theorem relation_ne_root_of_mem (h : Preorder f (below f i) order) {x : NodeId × Relation}
    (hx : x ∈ order) : x.2 ≠ .root := by
  have hbelow : ∀ p, x ∈ below f p → x.2 ≠ .root := by
    intro p hx
    unfold below at hx
    simp only [List.mem_append, List.mem_map] at hx
    rcases hx with ⟨j, _, rfl⟩ | ⟨j, _, rfl⟩ <;> simp
  rw [h.perm_below.mem_iff, List.mem_append, List.mem_flatMap] at hx
  rcases hx with hx | ⟨y, _, hx⟩
  · exact hbelow i hx
  · exact hbelow y.1 hx

/-- The number of classes below a class is that of the lines below it. -/
theorem total_descendants (hi : i < (build ds).size) :
    ((build ds).descendants i).total = (descent (build ds) (build ds).size i "").length := by
  have hkind : ∀ l ∈ descent (build ds) (build ds).size i "",
      (!(l.relation == .inherits)) = (l.relation == .nested) := by
    intro l hl
    have hne := relation_ne_root_of_mem (preorder_descent hi)
      (List.mem_map_of_mem (f := fun l => (l.node, l.relation)) hl)
    cases hrelation : l.relation with
    | root => exact absurd hrelation hne
    | inherits => rfl
    | nested => rfl
  rw [descendants_build hi, Descendants.total,
    List.length_eq_countP_add_countP (fun l => l.relation == .inherits)]
  congr 1
  refine (List.countP_congr fun l hl => ?_).symm
  rw [← hkind l hl]
  simp

/-! ### Counts and outlines -/

/-- The counts below the classes of a forest are those of the lines of their outlines. -/
structure Counted (f : Forest) : Prop where
  inherited : ∀ i < f.size,
    (f.descendants i).inherited = (subtree f i).countP (·.relation == .inherits)
  nested : ∀ i < f.size,
    (f.descendants i).nested = (subtree f i).countP (·.relation == .nested)
  /-- The outline of a class has a line for the class and one for each class below it. -/
  length : ∀ i < f.size, (f.descendants i).total + 1 = (subtree f i).length
  /-- Every class is a root or below a root, and below one root only. -/
  roots : (f.roots.map fun r => (f.descendants r).total + 1).sum = f.size
  /-- The small outline of a class has the lines below it up to a limit, and a note on the rest if
  there is a rest. -/
  miniOutline : ∀ i < f.size, ∀ limit, Details.miniOutline f i limit =
    (((subtree f i).drop 1).take (min limit (f.descendants i).total)).map
        (fun l => Details.dimmed l.plain) ++
      if limit < (f.descendants i).total then
        [Details.dimmed ("… " ++ toString ((f.descendants i).total - limit) ++ " more")]
      else []
  /-- The panel about a class shows the small outline between the counts and the methods. -/
  details : ∀ i < f.size, ∀ n, f.node? i = some n → ∀ disk root view, ∃ before after,
    Details.lines disk f i n root view =
      before ++ Details.field "Descendants" (toString (f.descendants i).total ++ " (" ++
          toString (f.descendants i).inherited ++ " inherited, " ++
          toString (f.descendants i).nested ++ " nested)") ::
        (Details.miniOutline f i view.miniOutlineLines ++
          Details.field "Methods" (toString n.declaration.methods) :: after) ∧
      after.length = 3

/-- The lines of an outline are those of the outlines of its roots. -/
theorem sum_length_subtree (ds : List Declaration) :
    ((build ds).roots.map fun r => (subtree (build ds) r).length).sum = (build ds).size := by
  have hlength := (nodes_lines_perm ds).length_eq
  rw [List.length_map, List.length_range, lines, List.length_flatMap] at hlength
  exact hlength

theorem length_drop_subtree (hi : i < (build ds).size) :
    ((subtree (build ds) i).drop 1).length = ((build ds).descendants i).total := by
  rw [total_descendants hi]
  rfl

/-- A class with nothing below it has an empty small outline, whether or not it is shown. -/
theorem miniOutline_of_total (hi : i < (build ds).size) (limit : Nat) :
    (if 0 < ((build ds).descendants i).total then Details.miniOutline (build ds) i limit else []) =
      Details.miniOutline (build ds) i limit := by
  split_ifs with hzero
  · rfl
  · have hnil : (subtree (build ds) i).drop 1 = [] := by
      rw [← List.length_eq_zero_iff, length_drop_subtree hi]
      omega
    unfold Details.miniOutline
    rw [hnil]
    simp

/-- **Counting and drawing agree** below every class of a built forest. -/
theorem counted_build (ds : List Declaration) : Counted (build ds) where
  inherited i hi := by
    rw [descendants_build hi, subtree, List.countP_cons_of_neg (by simp [line])]
  nested i hi := by
    rw [descendants_build hi, subtree, List.countP_cons_of_neg (by simp [line])]
  length i hi := by
    rw [total_descendants hi, subtree, List.length_cons]
  roots := by
    have hlength : ∀ r ∈ (build ds).roots,
        ((build ds).descendants r).total + 1 = (subtree (build ds) r).length := by
      intro r hr
      rw [total_descendants (mem_roots_build.1 hr).1, subtree, List.length_cons]
    rw [List.map_congr_left hlength, sum_length_subtree]
  miniOutline i hi limit := by
    unfold Details.miniOutline
    dsimp only
    -- a limit beyond the last line takes the same lines
    have htake : ((subtree (build ds) i).drop 1).take limit =
        ((subtree (build ds) i).drop 1).take (min limit ((build ds).descendants i).total) := by
      rw [List.take_eq_take_iff, length_drop_subtree hi]
      omega
    rw [length_drop_subtree hi, htake]
  details i hi n hn disk root view := by
    have hsplit : ∀ (a b m z : List StyledLine) (x y : StyledLine),
        a ++ b ++ [x, y] ++ m ++ z = (a ++ b ++ [x]) ++ y :: (m ++ z) := by
      intro a b m z x y
      simp
    unfold Details.lines
    dsimp only
    rw [miniOutline_of_total hi]
    exact ⟨_, _, hsplit _ _ _ _ _ _, rfl⟩

/-! ### The place of a class in the outline -/

/-- Class `j` hangs below class `i`, directly or through other classes. -/
def Beneath (f : Forest) (j i : NodeId) : Prop :=
  Relation.TransGen (fun a b => f.above? a = some b) j i

/-- The outline of a forest has, behind its line `l` at place `n`, the outline of the class of the
line without its first line, moved to the right behind `indent`. -/
structure Embeds (f : Forest) (n : Nat) (l : OutlineLine) (indent : String) : Prop where
  /-- The indent is what the rails of the line leave for the lines below it. -/
  continues : Continues f l indent
  /-- There are as many lines as classes below the class. -/
  fits : n + (f.descendants l.node).total < (lines f).length
  lines : ((lines f).drop (n + 1)).take (f.descendants l.node).total =
    ((subtree f l.node).drop 1).map (·.indented indent)
  /-- These lines, and no others, show a class below the class. -/
  beneath : ∀ m u, (Outline.lines f)[m]? = some u →
    (Beneath f u.node l.node ↔ n < m ∧ m ≤ n + (f.descendants l.node).total)

/-- The classes below a class are those of its pre-order. -/
theorem mem_iff_beneath (h : Preorder (build ds) (below (build ds) i) order) {j : NodeId} :
    j ∈ order.map Prod.fst ↔ Beneath (build ds) j i := by
  rw [h.mem_iff_leads, Beneath, Relation.TransGen.tail'_iff]
  simp only [mem_map_fst_below, and_comm]

/-- In a list without repetitions, what is in a part of it is at the places of the part. -/
theorem mem_part_iff {nodes part after : List NodeId} {k m : Nat} {j : NodeId}
    (hnodup : nodes.Nodup) (hdrop : nodes.drop k = part ++ after) (hj : nodes[m]? = some j) :
    j ∈ part ↔ k ≤ m ∧ m < k + part.length := by
  constructor
  · intro hmem
    obtain ⟨r, hr⟩ := List.getElem?_of_mem hmem
    obtain ⟨hlt, _⟩ := List.getElem?_eq_some_iff.1 hr
    have hplace : nodes[k + r]? = some j := by
      rw [← List.getElem?_drop, hdrop, List.getElem?_append_left hlt, hr]
    obtain ⟨hm, _⟩ := List.getElem?_eq_some_iff.1 hj
    have heq : m = k + r := (List.getElem?_inj hm hnodup).1 (hj.trans hplace.symm)
    omega
  · rintro ⟨hk, hm⟩
    obtain ⟨r, rfl⟩ : ∃ r, m = k + r := ⟨m - k, by omega⟩
    rw [← List.getElem?_drop, hdrop, List.getElem?_append_left (by omega)] at hj
    exact List.mem_of_getElem? hj

/-- **Behind the line of a class stands its own outline**, moved to the right, and no other line of
the outline of a forest shows a class below it. -/
theorem embeds_lines {n : Nat} {l : OutlineLine} (hl : (lines (build ds))[n]? = some l) :
    ∃ indent, Embeds (build ds) n l indent := by
  obtain ⟨indent, after, hcontinues, hdrop⟩ := exists_drop_lines hl
  have hi : l.node < (build ds).size :=
    List.mem_range.1 ((nodes_lines_perm ds).mem_iff.1 (List.mem_map_of_mem (List.mem_of_getElem? hl)))
  have htotal := total_descendants hi
  obtain ⟨hn, _⟩ := List.getElem?_eq_some_iff.1 hl
  refine ⟨indent, hcontinues, ?_, ?_, fun m u hu => ?_⟩
  · have hlength := congrArg List.length hdrop
    simp only [List.length_drop, List.length_append, List.length_map] at hlength
    omega
  · rw [hdrop, List.take_left' (by rw [List.length_map, htotal])]
    rfl
  · -- every class has one line only, so a class below is shown in this part or nowhere
    have hnodup : ((lines (build ds)).map (·.node)).Nodup :=
      (nodes_lines_perm ds).nodup_iff.2 List.nodup_range
    have hnodes : ((lines (build ds)).map (·.node)).drop (n + 1) =
        (descent (build ds) (build ds).size l.node "").map (·.node) ++ after.map (·.node) := by
      rw [← List.map_drop, hdrop, List.map_append, List.map_map]
      rfl
    have hplace : ((lines (build ds)).map (·.node))[m]? = some u.node := by
      rw [List.getElem?_map, hu]
      rfl
    rw [← mem_iff_beneath (preorder_descent hi), map_fst_nodes,
      mem_part_iff hnodup hnodes hplace, List.length_map, htotal]
    omega

/-- A class with two heirs, one of which has a class inside it. -/
def animals : List Declaration :=
  [{ name := "Animal", file := "Animal.cs" },
    { name := "Tag", file := "Dog.cs", container := some "Dog" },
    { name := "Fox", base := some "Animal", file := "Fox.cs" },
    { name := "Dog", base := some "Animal", file := "Dog.cs" }]

/-- The lines below a class that is neither a root nor the last of its siblings. -/
theorem embeds_lines_besideSibling :
    (lines (build animals))[1]? = some ⟨3, .inherits, "├── ", "Dog", .normal⟩ ∧
      ∃ indent, Embeds (build animals) 1 ⟨3, .inherits, "├── ", "Dog", .normal⟩ indent := by
  have hline : (lines (build animals))[1]? = some ⟨3, .inherits, "├── ", "Dog", .normal⟩ := by
    simp only [build, assemble, sortByName_eq_insertionSort]
    decide +kernel
  exact ⟨hline, embeds_lines hline⟩

end Outline

end Lineage
