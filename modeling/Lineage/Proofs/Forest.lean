import Lineage.Forest.Basic
import Lineage.Proofs.Links
import Mathlib.Data.List.Nodup
import Mathlib.Data.List.Pairwise
import Mathlib.Data.List.Sort

/-!
# The forest is a forest

What a forest built from a list of declarations shows of its links, and from that the shape of
the whole (`wellFormed_build`): every class stands in exactly one of the lists of roots, of
derived classes and of nested classes; lists and links agree; no chain of links comes back to a
class, and each one ends at a root, so that exactly one path leads down to each class.
-/

namespace Lineage.Forest

open Chain

variable {f : Forest} {t : Table} {l : Links} {released : List NodeId} {ds : List Declaration}
  {i j : NodeId}

/-- The class around a class. -/
def container? (f : Forest) (i : NodeId) : Option NodeId :=
  (f.node? i).bind (·.container)

/-- The class that a class hangs below, by either kind of link. -/
def above? (f : Forest) (i : NodeId) : Option NodeId :=
  (f.parent? i).or (f.container? i)

/-- The list of classes from a root down to a class, each hanging directly below the one before
it. -/
inductive Path (f : Forest) : List NodeId → NodeId → Prop
  | root {r : NodeId} (h : r ∈ f.roots) : Path f [r] r
  | down {path : List NodeId} {i j : NodeId} (above : Path f path i)
    (h : j ∈ f.childrenOf i ∨ j ∈ f.nestedOf i) : Path f (path ++ [j]) j

/-- The shape of a forest. -/
structure WellFormed (f : Forest) : Prop where
  /-- Every class occurs exactly once among the roots and the classes below other classes. -/
  once : (f.roots ++ (List.range f.size).flatMap fun i => f.childrenOf i ++ f.nestedOf i).Perm
    (List.range f.size)
  /-- The classes listed below a class by inheritance are those with a parent link to it. -/
  mem_childrenOf : ∀ i p, i ∈ f.childrenOf p ↔ f.parent? i = some p
  /-- The classes listed inside a class are those with a container link to it. -/
  mem_nestedOf : ∀ i c, i ∈ f.nestedOf c ↔ f.container? i = some c
  /-- No class has both a parent and a container. -/
  one_link : ∀ i, f.parent? i = none ∨ f.container? i = none
  /-- The roots are the classes with neither. -/
  mem_roots : ∀ i, i ∈ f.roots ↔ i < f.size ∧ f.parent? i = none ∧ f.container? i = none
  /-- Going up never comes back to a class. -/
  no_loop : ∀ i, ¬ OnLoop f.above? i
  /-- Going up ends at a root. -/
  leads_root : ∀ i < f.size, ∃ r ∈ f.roots, Leads f.above? i r
  /-- There is exactly one way down to each class. -/
  path : ∀ i < f.size, ∃! path, f.Path path i

/-! ### Sorted lists of classes -/

/-- Sorting by name keeps the classes. -/
theorem sortByName_perm (t : Table) (ids : List NodeId) : (sortByName t ids).Perm ids :=
  List.mergeSort_perm ids _

theorem mem_sortByName {ids : List NodeId} : i ∈ sortByName t ids ↔ i ∈ ids :=
  (sortByName_perm t ids).mem_iff

theorem sortByName_le_iff :
    (!decide (nameAt t j < nameAt t i)) = true ↔ nameAt t i ≤ nameAt t j := by
  rw [Bool.not_eq_true', decide_eq_false_iff_not, String.not_lt]

theorem sortByName_le_trans (t : Table) (i j k : NodeId) (hij : !decide (nameAt t j < nameAt t i))
    (hjk : !decide (nameAt t k < nameAt t j)) : !decide (nameAt t k < nameAt t i) :=
  sortByName_le_iff.2 (String.le_trans (sortByName_le_iff.1 hij) (sortByName_le_iff.1 hjk))

theorem sortByName_le_total (t : Table) (i j : NodeId) :
    (!decide (nameAt t j < nameAt t i)) || !decide (nameAt t i < nameAt t j) := by
  rw [Bool.or_eq_true, sortByName_le_iff, sortByName_le_iff]
  exact String.le_total _ _

/-- Sorting by name puts the names in order. -/
theorem sorted_sortByName (t : Table) (ids : List NodeId) :
    (sortByName t ids).Pairwise fun i j => nameAt t i ≤ nameAt t j :=
  (List.pairwise_mergeSort (sortByName_le_trans t) (sortByName_le_total t) ids).imp
    sortByName_le_iff.1

/-- Sorting by name inserts the classes one after another, the last one first. -/
theorem sortByName_eq_insertionSort (t : Table) (ids : List NodeId) :
    sortByName t ids = ids.insertionSort fun i j => nameAt t i ≤ nameAt t j := by
  induction ids with
  | nil => exact List.mergeSort_nil
  | cons i ids ih =>
    obtain ⟨front, back, hsort, hrest, hfront⟩ :=
      List.mergeSort_cons (sortByName_le_trans t) (sortByName_le_total t) i ids
    have hsorted := sorted_sortByName t (i :: ids)
    rw [sortByName] at ih hsorted ⊢
    rw [hsort] at hsorted ⊢
    rw [List.insertionSort_cons, ← ih, hrest]
    clear ih hrest hsort
    -- the class goes before the first one whose name is not less
    induction front with
    | nil =>
      cases back with
      | nil => rfl
      | cons j back =>
        have hle := (List.pairwise_cons.1 hsorted).1 j List.mem_cons_self
        rw [List.nil_append, List.nil_append, List.orderedInsert_cons, if_pos hle]
    | cons j front ih =>
      have hlt := hfront j List.mem_cons_self
      rw [Bool.not_eq_true', ← Bool.not_eq_true, sortByName_le_iff] at hlt
      rw [List.cons_append, List.cons_append, List.orderedInsert_cons, if_neg hlt,
        ← ih (fun b hb => hfront b (List.mem_cons_of_mem j hb)) (List.pairwise_cons.1 hsorted).2]

theorem mem_hangingBelow {n : Nat} {above : NodeId → Option NodeId} :
    j ∈ hangingBelow n above i ↔ j < n ∧ above j = some i := by
  unfold hangingBelow
  rw [List.mem_filter, List.mem_range, beq_iff_eq]

theorem nodup_hangingBelow (n : Nat) (above : NodeId → Option NodeId) (i : NodeId) :
    (hangingBelow n above i).Nodup :=
  List.nodup_range.filter _

/-! ### The classes of an assembled forest -/

theorem size_assemble : (assemble t l released).size = t.size := by
  simp [assemble, size]

theorem node?_assemble (hi : i < t.size) :
    (assemble t l released).node? i = some
      { declaration := (t.entries[i]?).getD default
        parent := l.parent? i
        container := l.container? i
        children := sortByName t (hangingBelow t.size l.parent? i)
        nested := sortByName t (hangingBelow t.size l.container? i)
        depth := ((depths t.size l)[i]?).getD 0 } := by
  unfold node? assemble
  rw [List.getElem?_toArray, List.getElem?_map, List.getElem?_range hi]
  rfl

theorem node?_assemble_eq_none (hi : ¬ i < t.size) : (assemble t l released).node? i = none := by
  have hsize : (assemble t l released).nodes.size ≤ i := by
    have heq : (assemble t l released).nodes.size = t.size := size_assemble
    rw [heq]
    exact Nat.le_of_not_lt hi
  exact Array.getElem?_eq_none hsize

/-- Outside the table there are no links. -/
theorem above?_eq_none_of_within (hl : Within l.above? t.size) (hi : ¬ i < t.size) :
    l.parent? i = none ∧ l.container? i = none := by
  rw [← Links.above?_eq_none_iff, Option.eq_none_iff_forall_ne_some]
  exact fun j hij => hi (hl i j hij).1

theorem parent?_assemble (hl : Within l.above? t.size) :
    (assemble t l released).parent? i = l.parent? i := by
  unfold parent?
  by_cases hi : i < t.size
  · rw [node?_assemble hi]
    rfl
  · rw [node?_assemble_eq_none hi, (above?_eq_none_of_within hl hi).1]
    rfl

theorem container?_assemble (hl : Within l.above? t.size) :
    (assemble t l released).container? i = l.container? i := by
  unfold container?
  by_cases hi : i < t.size
  · rw [node?_assemble hi]
    rfl
  · rw [node?_assemble_eq_none hi, (above?_eq_none_of_within hl hi).2]
    rfl

theorem childrenOf_assemble (hi : i < t.size) :
    (assemble t l released).childrenOf i = sortByName t (hangingBelow t.size l.parent? i) := by
  unfold childrenOf
  rw [node?_assemble hi]
  rfl

theorem nestedOf_assemble (hi : i < t.size) :
    (assemble t l released).nestedOf i = sortByName t (hangingBelow t.size l.container? i) := by
  unfold nestedOf
  rw [node?_assemble hi]
  rfl

/-! ### The classes of a built forest -/

theorem node?_build (hi : i < (Table.ofList ds).size) :
    (build ds).node? i = some
      { declaration := ((Table.ofList ds).entries[i]?).getD default
        parent := (Links.resolve (Table.ofList ds)).1.parent? i
        container := (Links.resolve (Table.ofList ds)).1.container? i
        children := sortByName (Table.ofList ds)
          (hangingBelow (Table.ofList ds).size (Links.resolve (Table.ofList ds)).1.parent? i)
        nested := sortByName (Table.ofList ds)
          (hangingBelow (Table.ofList ds).size (Links.resolve (Table.ofList ds)).1.container? i)
        depth :=
          ((depths (Table.ofList ds).size (Links.resolve (Table.ofList ds)).1)[i]?).getD 0 } :=
  node?_assemble hi

theorem node?_build_eq_none (hi : ¬ i < (Table.ofList ds).size) : (build ds).node? i = none :=
  node?_assemble_eq_none hi

/-- The forest has the declarations of its table, in the same order. -/
theorem declarations_build (ds : List Declaration) :
    (build ds).declarations = (Table.ofList ds).entries.toList := by
  unfold declarations
  refine List.ext_getElem? fun i => ?_
  rw [List.getElem?_map, Array.getElem?_toList, Array.getElem?_toList]
  by_cases hi : i < (Table.ofList ds).size
  · have hnode := node?_build hi
    have hentry : (Table.ofList ds).entries[i]? = some ((Table.ofList ds).entries[i]) :=
      Array.getElem?_eq_getElem hi
    rw [node?] at hnode
    rw [hnode, hentry]
    rfl
  · have hnode := node?_build_eq_none hi
    rw [node?] at hnode
    rw [hnode, Array.getElem?_eq_none (Nat.le_of_not_lt hi)]
    rfl

theorem size_build : (build ds).size = (Table.ofList ds).size :=
  size_assemble

theorem parent?_build :
    (build ds).parent? i = (Links.resolve (Table.ofList ds)).1.parent? i :=
  parent?_assemble (Links.within_above?_resolve _)

theorem container?_build :
    (build ds).container? i = (Links.resolve (Table.ofList ds)).1.container? i :=
  container?_assemble (Links.within_above?_resolve _)

theorem above?_build : (build ds).above? = (Links.resolve (Table.ofList ds)).1.above? := by
  funext i
  unfold above? Links.above?
  rw [parent?_build, container?_build]

/-- Links lead from the classes of a built forest to classes of the forest. -/
theorem within_above?_build (ds : List Declaration) :
    Within (build ds).above? (build ds).size := by
  rw [above?_build, size_build]
  exact Links.within_above?_resolve _

/-- Outside the table nothing hangs below. -/
theorem hangingBelow_eq_nil {above : NodeId → Option NodeId} {n : Nat} (h : Within above n)
    (hi : ¬ i < n) : hangingBelow n above i = [] := by
  refine List.eq_nil_iff_forall_not_mem.2 fun j hj => hi ?_
  exact (h j i (mem_hangingBelow.1 hj).2).2

theorem childrenOf_build (ds : List Declaration) (p : NodeId) :
    (build ds).childrenOf p = sortByName (Table.ofList ds)
      (hangingBelow (Table.ofList ds).size (Links.resolve (Table.ofList ds)).1.parent? p) := by
  by_cases hp : p < (Table.ofList ds).size
  · exact childrenOf_assemble hp
  · rw [hangingBelow_eq_nil (Links.within_parent?_resolve _) hp, sortByName, List.mergeSort_nil,
      childrenOf, node?_build_eq_none hp]
    rfl

theorem nestedOf_build (ds : List Declaration) (c : NodeId) :
    (build ds).nestedOf c = sortByName (Table.ofList ds)
      (hangingBelow (Table.ofList ds).size (Links.resolve (Table.ofList ds)).1.container? c) := by
  by_cases hc : c < (Table.ofList ds).size
  · exact nestedOf_assemble hc
  · rw [hangingBelow_eq_nil (Links.within_container?_resolve _) hc, sortByName, List.mergeSort_nil,
      nestedOf, node?_build_eq_none hc]
    rfl

/-- The classes below class `p` by inheritance are those with a parent link to `p`. -/
theorem mem_childrenOf_build {p : NodeId} :
    i ∈ (build ds).childrenOf p ↔ (build ds).parent? i = some p := by
  rw [childrenOf_build, mem_sortByName, mem_hangingBelow, parent?_build]
  exact and_iff_right_of_imp fun h => (Links.within_parent?_resolve _ i p h).1

/-- The classes inside class `c` are those with a container link to `c`. -/
theorem mem_nestedOf_build {c : NodeId} :
    i ∈ (build ds).nestedOf c ↔ (build ds).container? i = some c := by
  rw [nestedOf_build, mem_sortByName, mem_hangingBelow, container?_build]
  exact and_iff_right_of_imp fun h => (Links.within_container?_resolve _ i c h).1

/-- The classes directly below a class, by either kind of link, are those that hang below it. -/
theorem mem_below_build :
    j ∈ (build ds).childrenOf i ∨ j ∈ (build ds).nestedOf i ↔ (build ds).above? j = some i := by
  rw [mem_childrenOf_build, mem_nestedOf_build, above?_build, Links.above?_eq_some_iff,
    parent?_build, container?_build]
  refine or_congr_right ⟨fun h => ⟨?_, h⟩, And.right⟩
  refine (Links.parent?_or_container?_resolve_eq_none (Table.ofList ds) j).resolve_right ?_
  rw [h]
  simp

/-- The roots before they are sorted: the classes that never had a link, then those cut loose. -/
theorem roots_build_perm (ds : List Declaration) :
    (build ds).roots.Perm
      ((List.range (Table.ofList ds).size).filter (fun i =>
          ((Links.resolve (Table.ofList ds)).1.above? i).isNone &&
            !(Links.resolve (Table.ofList ds)).2.contains i) ++
        (Links.resolve (Table.ofList ds)).2) :=
  sortByName_perm _ _

/-- The roots are the classes of the table that hang below no class. -/
theorem mem_roots_build : i ∈ (build ds).roots ↔ i < (build ds).size ∧ (build ds).above? i = none := by
  rw [(roots_build_perm ds).mem_iff, List.mem_append, List.mem_filter, List.mem_range, size_build,
    above?_build]
  by_cases hcut : i ∈ (Links.resolve (Table.ofList ds)).2
  · have hi := Links.mem_resolve_iff.1 hcut
    refine iff_of_true (Or.inr hcut) ⟨hi.lt_size, ?_⟩
    exact (Links.released_resolve _).above?_cut hi.lt_size hi
  · simp [hcut]

theorem nodup_roots_build (ds : List Declaration) : (build ds).roots.Nodup := by
  refine (roots_build_perm ds).nodup_iff.2 (List.Nodup.append ?_ ?_ ?_)
  · exact List.nodup_range.filter _
  · exact (Links.sorted_resolve _).imp ne_of_lt
  · intro i hi hcut
    rw [List.mem_filter] at hi
    simp [hcut] at hi

/-- The lists of classes below a class have no class twice. -/
theorem nodup_below_build (ds : List Declaration) (i : NodeId) :
    ((build ds).childrenOf i ++ (build ds).nestedOf i).Nodup := by
  refine List.Nodup.append ?_ ?_ ?_
  · rw [childrenOf_build]
    exact (sortByName_perm _ _).nodup_iff.2 (nodup_hangingBelow _ _ _)
  · rw [nestedOf_build]
    exact (sortByName_perm _ _).nodup_iff.2 (nodup_hangingBelow _ _ _)
  · intro j hchild hnested
    rw [mem_childrenOf_build, parent?_build] at hchild
    rw [mem_nestedOf_build, container?_build] at hnested
    rcases Links.parent?_or_container?_resolve_eq_none (Table.ofList ds) j with h | h
    · rw [hchild] at h; cases h
    · rw [hnested] at h; cases h

/-- Every class stands in exactly one list, once. -/
theorem once_build (ds : List Declaration) :
    ((build ds).roots ++ (List.range (build ds).size).flatMap fun i =>
      (build ds).childrenOf i ++ (build ds).nestedOf i).Perm (List.range (build ds).size) := by
  have hbelow : ∀ i j, j ∈ (build ds).childrenOf i ++ (build ds).nestedOf i ↔
      (build ds).above? j = some i := fun i j => by
    rw [List.mem_append]
    exact mem_below_build
  have hwithin : ∀ {i j}, (build ds).above? j = some i →
      j < (build ds).size ∧ i < (build ds).size := by
    intro i j h
    rw [above?_build] at h
    rw [size_build]
    exact Links.within_above?_resolve _ _ _ h
  refine (List.perm_ext_iff_of_nodup ?_ List.nodup_range).2 fun j => ?_
  · -- a class hangs below one class at most, and a root below none
    refine List.Nodup.append (nodup_roots_build ds) (List.nodup_flatMap.2 ⟨?_, ?_⟩) ?_
    · exact fun i _ => nodup_below_build ds i
    · refine List.nodup_range.imp fun hne => ?_
      intro j hj hj'
      rw [hbelow] at hj hj'
      exact hne (Option.some.inj (hj.symm.trans hj'))
    · intro j hroot hj
      obtain ⟨i, _, hij⟩ := List.mem_flatMap.1 hj
      rw [hbelow] at hij
      rw [(mem_roots_build.1 hroot).2] at hij
      cases hij
  · rw [List.mem_append, mem_roots_build, List.mem_flatMap, List.mem_range]
    constructor
    · rintro (hroot | ⟨i, _, hij⟩)
      · exact hroot.1
      · exact (hwithin ((hbelow i j).1 hij)).1
    · intro hj
      cases habove : (build ds).above? j with
      | none => exact Or.inl ⟨hj, rfl⟩
      | some i =>
        refine Or.inr ⟨i, List.mem_range.2 (hwithin habove).2, (hbelow i j).2 habove⟩

/-! ### Going up and down -/

theorem ends_above?_build (ds : List Declaration) (i : NodeId) : Ends (build ds).above? i := by
  rw [above?_build]
  exact Links.ends_above?_resolve _ i

/-- A chain of links from a class of the table leads to a root. -/
theorem leads_root_build (hi : i < (build ds).size) :
    ∃ r ∈ (build ds).roots, Leads (build ds).above? i r := by
  obtain ⟨r, hir, htop⟩ := (ends_above?_build ds i).exists_top
  refine ⟨r, mem_roots_build.2 ⟨?_, htop⟩, hir⟩
  rcases Relation.ReflTransGen.cases_tail hir with rfl | ⟨j, _, hjr⟩
  · exact hi
  · rw [above?_build] at hjr
    rw [size_build]
    exact (Links.within_above?_resolve _ j r hjr).2

/-- Exactly one path leads down to each class: it is built, and taken apart, along the chain of
links above the class. -/
theorem existsUnique_path_build (hi : i < (build ds).size) : ∃! path, (build ds).Path path i := by
  obtain ⟨n, hn⟩ := ends_above?_build ds i
  induction hn with
  | @top i htop =>
    refine ⟨[i], .root (mem_roots_build.2 ⟨hi, htop⟩), fun path hpath => ?_⟩
    cases hpath with
    | root => rfl
    | down _ h =>
      rw [mem_below_build, htop] at h
      cases h
  | @up i p _ hip _ ih =>
    have hp : p < (build ds).size := by
      rw [above?_build] at hip
      rw [size_build]
      exact (Links.within_above?_resolve _ i p hip).2
    obtain ⟨path, hpath, hunique⟩ := ih hp
    refine ⟨path ++ [i], .down hpath (mem_below_build.2 hip), fun path' hpath' => ?_⟩
    cases hpath' with
    | root h =>
      rw [(mem_roots_build.1 h).2] at hip
      cases hip
    | down above h =>
      rw [mem_below_build, hip] at h
      obtain rfl := Option.some.inj h
      rw [hunique _ above]

/-- **The forest of any list of declarations is a forest** of the classes of its table, whatever
names the declarations repeat and whatever loops their names make. -/
theorem wellFormed_build (ds : List Declaration) :
    (build ds).WellFormed ∧ (build ds).declarations = (Table.ofList ds).entries.toList := by
  refine ⟨?_, declarations_build ds⟩
  refine ⟨once_build ds, fun _ _ => mem_childrenOf_build, fun _ _ => mem_nestedOf_build, ?_, ?_,
    fun i => (ends_above?_build ds i).not_onLoop, fun _ hi => leads_root_build hi,
    fun _ hi => existsUnique_path_build hi⟩
  · intro i
    rw [parent?_build, container?_build]
    exact Links.parent?_or_container?_resolve_eq_none _ i
  · intro i
    rw [mem_roots_build, above?, Option.or_eq_none_iff]

end Lineage.Forest
