import Lineage.Proofs.Preorder

/-!
# The outline below a class

The lines below a class in the outline of a forest are the lines of its own outline, moved to the
right.  A drawing is determined by what it draws and the indent it draws behind (`Draws.unique`), and
the indent is put in front of every line (`Draws.indented`).  So the lines below the class of a line
are found right after that line, drawn behind the indent that its own rails leave for them
(`Draws.exists_part`).
-/

namespace Lineage

/-- A line moved to the right behind an indent. -/
def OutlineLine.indented (l : OutlineLine) (indent : String) : OutlineLine :=
  { l with rails := indent ++ l.rails }

namespace Outline

open Forest

variable {f : Forest} {ds : List Declaration} {indent : String}
  {siblings : List (NodeId × Relation)} {drawing : List OutlineLine} {l : OutlineLine} {n : Nat}

/-- What stands before the lines below the class of line `l`: nothing below a root, and else the
rails of the line with its connector replaced by a blank or a bar. -/
structure Continues (f : Forest) (l : OutlineLine) (indent : String) : Prop where
  root : l.node ∈ f.roots → l.rails = "" ∧ indent = ""
  inner : l.node ∉ f.roots → ∃ front,
    l.rails = front ++ "└── " ∧ indent = front ++ "    " ∨
      l.rails = front ++ "├── " ∧ indent = front ++ "│   "

/-- There is one drawing of siblings behind an indent. -/
theorem Draws.unique {drawing' : List OutlineLine} (h : Draws f indent siblings drawing)
    (h' : Draws f indent siblings drawing') : drawing = drawing' := by
  induction h generalizing drawing' with
  | nil =>
    cases h'
    rfl
  | cons _ _ ihdown ihnext =>
    cases h' with
    | cons down' next' => rw [ihdown down', ihnext next']

/-- A longer indent stands before every line. -/
theorem Draws.indented (front : String) (h : Draws f indent siblings drawing) :
    Draws f (front ++ indent) siblings (drawing.map (·.indented front)) := by
  induction h with
  | nil => exact .nil
  | @cons indent i relation rest under after _ _ ihdown ihnext =>
    have hline : (line f i relation (indent ++ connector rest.isEmpty)).indented front =
        line f i relation (front ++ indent ++ connector rest.isEmpty) := by
      unfold OutlineLine.indented line
      dsimp only
      rw [String.append_assoc]
    rw [← String.append_assoc] at ihdown
    rw [List.map_cons, List.map_append, hline]
    exact .cons ihdown ihnext

/-- Behind a line of two joined drawings stands what is behind it in its own drawing, and the second
drawing if it is a line of the first. -/
theorem drop_of_getElem?_append {first second : List OutlineLine}
    (h : (first ++ second)[n]? = some l) :
    first[n]? = some l ∧ (first ++ second).drop (n + 1) = first.drop (n + 1) ++ second ∨
      ∃ m, second[m]? = some l ∧ (first ++ second).drop (n + 1) = second.drop (m + 1) := by
  rw [List.getElem?_append] at h
  split_ifs at h with hn
  · exact Or.inl ⟨h, List.drop_append_of_le_length hn⟩
  · refine Or.inr ⟨n - first.length, h, ?_⟩
    rw [List.drop_append, List.drop_eq_nil_of_le (by omega), List.nil_append]
    congr 1
    omega

/-- Behind a line of a drawing stands what is below its class. -/
theorem Draws.exists_part (h : Draws f indent siblings drawing) :
    ∀ {n : Nat} {l : OutlineLine}, drawing[n]? = some l →
      ∃ front isLast under after, l.rails = front ++ connector isLast ∧
        drawing.drop (n + 1) = under ++ after ∧
        Draws f (front ++ continuation isLast) (Outline.below f l.node) under := by
  induction h with
  | nil => intro n l hl; simp at hl
  | @cons indent i relation rest under after down _ ihdown ihnext =>
    intro n l hl
    cases n with
    | zero =>
      obtain rfl := Option.some.inj hl
      exact ⟨indent, rest.isEmpty, under, after, rfl, rfl, down⟩
    | succ n =>
      rw [List.getElem?_cons_succ] at hl
      rw [List.drop_succ_cons]
      -- the line is below the first sibling, or it belongs to the siblings after that
      rcases drop_of_getElem?_append hl with ⟨hunder, hbehind⟩ | ⟨m, hafter, hbehind⟩
      · obtain ⟨front, isLast, part, rest, hrails, hdrop, hpart⟩ := ihdown hunder
        refine ⟨front, isLast, part, rest ++ after, hrails, ?_, hpart⟩
        rw [hbehind, hdrop, List.append_assoc]
      · obtain ⟨front, isLast, part, rest, hrails, hdrop, hpart⟩ := ihnext hafter
        exact ⟨front, isLast, part, rest, hrails, hbehind.trans hdrop, hpart⟩

/-- The classes that are drawn below a class hang below some class. -/
theorem Draws.exists_above {p : NodeId}
    (h : Draws (build ds) indent (Outline.below (build ds) p) drawing) (hl : l ∈ drawing) :
    ∃ q, (build ds).above? l.node = some q := by
  have hnode : l.node ∈ (drawing.map fun l => (l.node, l.relation)).map Prod.fst := by
    rw [map_fst_nodes]
    exact List.mem_map_of_mem hl
  rw [h.preorder.perm.mem_iff, List.mem_append, List.mem_flatMap] at hnode
  rcases hnode with hbelow | ⟨q, _, hbelow⟩
  · exact ⟨p, mem_map_fst_below.1 hbelow⟩
  · exact ⟨q, mem_map_fst_below.1 hbelow⟩

/-- A bar or a blank group continues the connector of a line. -/
theorem continues_of_connector {front : String} {isLast : Bool} (hl : l.node ∉ f.roots)
    (hrails : l.rails = front ++ connector isLast) :
    Continues f l (front ++ continuation isLast) := by
  refine ⟨fun hroot => absurd hroot hl, fun _ => ⟨front, ?_⟩⟩
  cases isLast with
  | true => exact Or.inl ⟨hrails, rfl⟩
  | false => exact Or.inr ⟨hrails, rfl⟩

/-- Behind a line of the drawing below a class stands what is below the class of the line, as it is
drawn for that class alone. -/
theorem Draws.exists_drop {p : NodeId}
    (h : Draws (build ds) indent (Outline.below (build ds) p) drawing)
    (hl : drawing[n]? = some l) :
    ∃ indent after, Continues (build ds) l indent ∧
      drawing.drop (n + 1) =
        (descent (build ds) (build ds).size l.node "").map (·.indented indent) ++ after := by
  obtain ⟨q, hq⟩ := h.exists_above (List.mem_of_getElem? hl)
  have hroot : l.node ∉ (build ds).roots := by
    intro hroot
    rw [(mem_roots_build.1 hroot).2] at hq
    cases hq
  obtain ⟨front, isLast, under, after, hrails, hdrop, hunder⟩ := h.exists_part hl
  refine ⟨front ++ continuation isLast, after, continues_of_connector hroot hrails, ?_⟩
  -- drawn alone and moved to the right, it is a drawing behind the same indent
  have halone := (draws_descent (within_above?_build ds _ _ hq).1 "").indented
    (front ++ continuation isLast)
  rw [String.append_empty] at halone
  rw [hdrop, hunder.unique halone]

theorem map_indented_empty (drawing : List OutlineLine) :
    drawing.map (·.indented "") = drawing := by
  refine (List.map_congr_left fun l _ => ?_).trans (List.map_id _)
  unfold OutlineLine.indented
  rw [String.empty_append]
  rfl

/-- **Behind the line of a class stand the lines below it** as they are drawn for the class alone,
moved to the right behind an indent. -/
theorem exists_drop_lines (hl : (lines (build ds))[n]? = some l) :
    ∃ indent after, Continues (build ds) l indent ∧
      (lines (build ds)).drop (n + 1) =
        (descent (build ds) (build ds).size l.node "").map (·.indented indent) ++ after := by
  suffices h : ∀ (roots : List NodeId) n, (∀ r ∈ roots, r ∈ (build ds).roots) →
      (roots.flatMap (subtree (build ds)))[n]? = some l →
      ∃ indent after, Continues (build ds) l indent ∧
        (roots.flatMap (subtree (build ds))).drop (n + 1) =
          (descent (build ds) (build ds).size l.node "").map (·.indented indent) ++ after from
    h _ n (fun r hr => hr) hl
  -- by induction on the roots whose outlines are still ahead
  clear hl
  intro roots
  induction roots with
  | nil => intro n _ hl; simp at hl
  | cons r roots ih =>
    intro n hroots hl
    have hr := hroots r (List.mem_cons_self ..)
    rw [List.flatMap_cons] at hl ⊢
    rcases drop_of_getElem?_append hl with ⟨hl, hbehind⟩ | ⟨m, hl, hbehind⟩
    · rw [hbehind]
      cases n with
      | zero =>
        obtain rfl := Option.some.inj hl
        refine ⟨"", roots.flatMap (subtree (build ds)), ?_, ?_⟩
        · exact ⟨fun _ => ⟨rfl, rfl⟩, fun hnot => absurd hr hnot⟩
        · rw [map_indented_empty]
          rfl
      | succ n =>
        rw [subtree, List.getElem?_cons_succ] at hl
        obtain ⟨indent, after, hindent, hdrop⟩ :=
          (draws_descent (mem_roots_build.1 hr).1 "").exists_drop hl
        refine ⟨indent, after ++ roots.flatMap (subtree (build ds)), hindent, ?_⟩
        rw [subtree, List.drop_succ_cons, hdrop, List.append_assoc]
    · obtain ⟨indent, after, hindent, hdrop⟩ :=
        ih m (fun s hs => hroots s (List.mem_cons_of_mem _ hs)) hl
      exact ⟨indent, after, hindent, hbehind.trans hdrop⟩

end Outline

end Lineage
