import Lineage.Outline
import Lineage.Proofs.Forest
import Mathlib.Data.List.Count

/-!
# The order of the outline

The outline of a built forest goes through the forest in pre-order (`preorder_lines`): the roots
in their order, and below each class first those that derive from it, then those declared inside
it.  The drawing is given a number of levels, and the whole forest is never deeper than that
(`draws_descent`), so every class has a line, and only one (`nodes_lines_perm`).
-/

namespace Lineage.Outline

open Chain Forest

variable {f : Forest} {ds : List Declaration} {i p : NodeId} {relation : Relation}
  {indent : String} {siblings order : List (NodeId × Relation)} {drawing : List OutlineLine}

/-- A list of siblings with everything below them, in pre-order: each sibling, then what is below
it, then the siblings after it. -/
inductive Preorder (f : Forest) : List (NodeId × Relation) → List (NodeId × Relation) → Prop
  | nil : Preorder f [] []
  | cons {i : NodeId} {relation : Relation} {rest under after : List (NodeId × Relation)}
    (down : Preorder f (below f i) under) (next : Preorder f rest after) :
    Preorder f ((i, relation) :: rest) ((i, relation) :: (under ++ after))

/-- The drawing of a list of siblings behind an indent, down to the last level. -/
inductive Draws (f : Forest) : String → List (NodeId × Relation) → List OutlineLine → Prop
  | nil {indent : String} : Draws f indent [] []
  | cons {indent : String} {i : NodeId} {relation : Relation} {rest : List (NodeId × Relation)}
    {under after : List OutlineLine}
    (down : Draws f (indent ++ continuation rest.isEmpty) (below f i) under)
    (next : Draws f indent rest after) :
    Draws f indent ((i, relation) :: rest)
      (line f i relation (indent ++ connector rest.isEmpty) :: (under ++ after))

/-! ### The drawing is complete -/

/-- Siblings are drawn down to the last level if what is below each of them is. -/
theorem draws_siblings {draw : NodeId → String → List OutlineLine}
    (hdraw : ∀ x ∈ siblings, ∀ indent, Draws f indent (below f x.1) (draw x.1 indent))
    (indent : String) : Draws f indent siblings (Outline.siblings f draw indent siblings) := by
  induction siblings with
  | nil => exact .nil
  | cons x rest ih =>
    obtain ⟨i, relation⟩ := x
    refine .cons (hdraw (i, relation) (List.mem_cons_self ..) _) ?_
    exact ih fun y hy => hdraw y (List.mem_cons_of_mem _ hy)

/-- A class stands below another one with the kind of the link between them. -/
theorem mem_below_iff :
    (i, relation) ∈ below (build ds) p ↔
      relation = .inherits ∧ (build ds).parent? i = some p ∨
        relation = .nested ∧ (build ds).container? i = some p := by
  unfold below
  rw [List.mem_append, List.mem_map, List.mem_map]
  simp only [Prod.mk.injEq, mem_childrenOf_build, mem_nestedOf_build]
  constructor
  · rintro (⟨_, hparent, rfl, rfl⟩ | ⟨_, hcontainer, rfl, rfl⟩)
    · exact Or.inl ⟨rfl, hparent⟩
    · exact Or.inr ⟨rfl, hcontainer⟩
  · rintro (⟨rfl, hparent⟩ | ⟨rfl, hcontainer⟩)
    · exact Or.inl ⟨i, hparent, rfl, rfl⟩
    · exact Or.inr ⟨i, hcontainer, rfl, rfl⟩

theorem map_fst_below (f : Forest) (p : NodeId) :
    (below f p).map Prod.fst = f.childrenOf p ++ f.nestedOf p := by
  simp [below, Function.comp_def]

/-- The classes below a class are those that hang below it. -/
theorem mem_map_fst_below :
    i ∈ (below (build ds) p).map Prod.fst ↔ (build ds).above? i = some p := by
  rw [map_fst_below, List.mem_append, mem_below_build]

/-- No class stands twice below a class. -/
theorem nodup_map_fst_below (ds : List Declaration) (p : NodeId) :
    ((below (build ds) p).map Prod.fst).Nodup := by
  rw [map_fst_below]
  exact nodup_below_build ds p

/-- Drawing as many levels as there are classes leaves nothing out: a class with `h` classes above
it has fewer than `size - h` levels below it. -/
theorem draws_descent_of_height (fuel : Nat) :
    ∀ {i h : Nat}, i < (build ds).size → Height (build ds).above? i h →
      (build ds).size ≤ fuel + h →
      ∀ indent,
        Draws (build ds) indent (below (build ds) i) (descent (build ds) fuel i indent) := by
  induction fuel with
  | zero =>
    intro i h hi hheight hfuel
    have hlt := (within_above?_build ds).height_lt hi hheight
    omega
  | succ fuel ih =>
    intro i h hi hheight hfuel indent
    refine draws_siblings (fun x hx => ?_) indent
    have habove : (build ds).above? x.1 = some i :=
      mem_map_fst_below.1 (List.mem_map_of_mem hx)
    have hx : x.1 < (build ds).size := (within_above?_build ds _ _ habove).1
    exact ih hx (.up habove hheight) (by omega)

/-- Everything below a class is drawn. -/
theorem draws_descent (hi : i < (build ds).size) (indent : String) :
    Draws (build ds) indent (below (build ds) i)
      (descent (build ds) (build ds).size i indent) := by
  obtain ⟨h, hheight⟩ := ends_above?_build ds i
  exact draws_descent_of_height _ hi hheight (by omega) indent

/-! ### The order of the lines -/

/-- A drawing is in pre-order. -/
theorem Draws.preorder (h : Draws f indent siblings drawing) :
    Preorder f siblings (drawing.map fun l => (l.node, l.relation)) := by
  induction h with
  | nil => exact .nil
  | cons _ _ ihdown ihnext =>
    rw [List.map_cons, List.map_append]
    exact .cons ihdown ihnext

theorem map_fst_nodes (drawing : List OutlineLine) :
    (drawing.map fun l => (l.node, l.relation)).map Prod.fst = drawing.map (·.node) := by
  rw [List.map_map]
  rfl

/-- **The outline of a built forest is in pre-order.** -/
theorem preorder_lines (ds : List Declaration) :
    Preorder (build ds) ((build ds).roots.map fun r => (r, .root))
      ((lines (build ds)).map fun l => (l.node, l.relation)) := by
  have hroots : ∀ r ∈ (build ds).roots, r < (build ds).size := fun r hr => (mem_roots_build.1 hr).1
  unfold lines
  generalize (build ds).roots = roots at hroots
  induction roots with
  | nil => exact .nil
  | cons r roots ih =>
    rw [List.flatMap_cons, subtree, List.cons_append, List.map_cons, List.map_cons, List.map_append]
    refine .cons (draws_descent (hroots r (List.mem_cons_self ..)) "").preorder ?_
    exact ih fun s hs => hroots s (List.mem_cons_of_mem _ hs)

/-! ### Putting together and taking apart -/

/-- Siblings after siblings are in pre-order after them. -/
theorem Preorder.append {more after : List (NodeId × Relation)} (h : Preorder f siblings order)
    (hmore : Preorder f more after) : Preorder f (siblings ++ more) (order ++ after) := by
  induction h with
  | nil => exact hmore
  | cons down _ _ ihnext =>
    rw [List.cons_append, List.cons_append, List.append_assoc]
    exact .cons down ihnext

/-- A pre-order of siblings after siblings is a pre-order after a pre-order. -/
theorem Preorder.split {more : List (NodeId × Relation)} (h : Preorder f (siblings ++ more) order) :
    ∃ front after, order = front ++ after ∧ Preorder f siblings front ∧ Preorder f more after := by
  induction siblings generalizing order with
  | nil => exact ⟨[], order, rfl, .nil, h⟩
  | cons x siblings ih =>
    cases h with
    | @cons i relation _ under rest down next =>
      obtain ⟨front, after, rfl, hfront, hafter⟩ := ih next
      exact ⟨(i, relation) :: (under ++ front), after, by simp, .cons down hfront, hafter⟩

/-! ### One line for each class -/

/-- A pre-order holds the siblings it starts from and, for each of its classes, those below it. -/
theorem Preorder.perm_below (h : Preorder f siblings order) :
    order.Perm (siblings ++ order.flatMap fun x => Outline.below f x.1) := by
  induction h with
  | nil => exact .nil
  | @cons i relation rest under after _ _ ihdown ihnext =>
    rw [List.perm_iff_count] at ihdown ihnext ⊢
    intro x
    have hdown := ihdown x
    have hnext := ihnext x
    simp only [List.flatMap_cons, List.flatMap_append, List.count_cons, List.count_append,
      List.cons_append] at hdown hnext ⊢
    omega

theorem Preorder.perm (h : Preorder f siblings order) :
    (order.map Prod.fst).Perm (siblings.map Prod.fst ++
      (order.map Prod.fst).flatMap fun i => (Outline.below f i).map Prod.fst) := by
  have hmap := h.perm_below.map Prod.fst
  rw [List.map_append, List.map_flatMap] at hmap
  rw [List.flatMap_map]
  exact hmap

/-- A pre-order comes to the classes from which links lead up to one of its siblings. -/
theorem Preorder.mem_iff_leads (h : Preorder (build ds) siblings order) :
    i ∈ order.map Prod.fst ↔ ∃ p ∈ siblings.map Prod.fst, Leads (build ds).above? i p := by
  constructor
  · induction h with
    | nil => intro hi; cases hi
    | @cons j relation rest under after _ _ ihdown ihnext =>
      intro hi
      simp only [List.map_cons, List.map_append, List.mem_cons, List.mem_append] at hi ⊢
      rcases hi with rfl | hi | hi
      · exact ⟨i, Or.inl rfl, .refl⟩
      · obtain ⟨p, hp, hip⟩ := ihdown hi
        exact ⟨j, Or.inl rfl, hip.tail (mem_map_fst_below.1 hp)⟩
      · obtain ⟨p, hp, hip⟩ := ihnext hi
        exact ⟨p, Or.inr hp, hip⟩
  · rintro ⟨p, hp, hip⟩
    -- the siblings are there, and with a class all those that hang below it
    induction hip using Relation.ReflTransGen.head_induction_on with
    | refl => exact h.perm.mem_iff.2 (List.mem_append_left _ hp)
    | @head j k hjk _ ih =>
      refine h.perm.mem_iff.2 (List.mem_append_right _ (List.mem_flatMap.2 ⟨k, ih, ?_⟩))
      exact mem_map_fst_below.2 hjk

/-- A class that stands once in the list of one class is as often in the lists of many classes as
that class is among them. -/
theorem count_flatMap_of_count {lists : NodeId → List NodeId}
    (h : ∀ q, (lists q).count i = if q = p then 1 else 0) (ids : List NodeId) :
    (ids.flatMap lists).count i = ids.count p := by
  induction ids with
  | nil => rfl
  | cons q ids ih =>
    rw [List.flatMap_cons, List.count_append, ih, h q, List.count_cons]
    simp only [beq_iff_eq]
    omega

/-- A pre-order that starts from the roots comes to each class once: to a root because it stands
once among the roots, and to any other class because it comes to the class above once. -/
theorem Preorder.count_eq_one
    (h : Preorder (build ds) ((build ds).roots.map fun r => (r, .root)) order)
    (hi : i < (build ds).size) : (order.map Prod.fst).count i = 1 := by
  have hcount := h.perm.count_eq
  simp only [List.map_map, Function.comp_def, List.map_id', List.count_append] at hcount
  obtain ⟨n, hn⟩ := ends_above?_build ds i
  induction hn with
  | @top i htop =>
    have hroot : (build ds).roots.count i = 1 :=
      List.count_eq_one_of_mem (nodup_roots_build ds) (mem_roots_build.2 ⟨hi, htop⟩)
    have hbelow : ((order.map Prod.fst).flatMap fun q =>
        (Outline.below (build ds) q).map Prod.fst).count i = 0 := by
      refine List.count_eq_zero.2 fun hmem => ?_
      obtain ⟨q, _, hq⟩ := List.mem_flatMap.1 hmem
      rw [mem_map_fst_below, htop] at hq
      cases hq
    rw [hcount, hroot, hbelow]
  | @up i p _ hip _ ih =>
    have hp := (within_above?_build ds i p hip).2
    have hroot : (build ds).roots.count i = 0 := by
      refine List.count_eq_zero.2 fun hmem => ?_
      rw [(mem_roots_build.1 hmem).2] at hip
      cases hip
    -- among the lists of classes below a class, only that of `p` has `i`
    have hbelow : ∀ q, ((Outline.below (build ds) q).map Prod.fst).count i =
        if q = p then 1 else 0 := by
      intro q
      split_ifs with hqp
      · subst hqp
        exact List.count_eq_one_of_mem (nodup_map_fst_below ds _) (mem_map_fst_below.2 hip)
      · refine List.count_eq_zero.2 fun hmem => hqp ?_
        rw [mem_map_fst_below, hip] at hmem
        exact (Option.some.inj hmem).symm
    rw [hcount, hroot, count_flatMap_of_count hbelow, ih hp]

/-- The classes of a pre-order that starts from the roots are classes of the forest. -/
theorem Preorder.lt_size
    (h : Preorder (build ds) ((build ds).roots.map fun r => (r, .root)) order)
    (hi : i ∈ order.map Prod.fst) : i < (build ds).size := by
  rw [h.perm.mem_iff, List.mem_append, List.mem_flatMap] at hi
  rcases hi with hi | ⟨q, _, hi⟩
  · simp only [List.map_map, Function.comp_def, List.map_id'] at hi
    exact (mem_roots_build.1 hi).1
  · exact (within_above?_build ds i q (mem_map_fst_below.1 hi)).1

/-- **Every class has exactly one line.** -/
theorem nodes_lines_perm (ds : List Declaration) :
    ((lines (build ds)).map (·.node)).Perm (List.range (build ds).size) := by
  have h := preorder_lines ds
  rw [List.perm_iff_count, ← map_fst_nodes]
  intro i
  by_cases hi : i < (build ds).size
  · rw [h.count_eq_one hi, List.count_eq_one_of_mem List.nodup_range (List.mem_range.2 hi)]
  · rw [List.count_eq_zero.2 fun hmem => hi (h.lt_size hmem),
      List.count_eq_zero.2 fun hmem => hi (List.mem_range.1 hmem)]

end Lineage.Outline
