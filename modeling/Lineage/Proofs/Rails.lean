import Lineage.Proofs.Preorder

/-!
# Reading an outline

What the characters before the labels say.  A line has a group of four characters for each class on
the way from its root down to its own class, and the groups tell which of these classes are the
last among their siblings (`Shows`).  So the number of groups is the level of the class, and the
class that a line hangs below is the one of the nearest line above it with one group less
(`Placed`): the links of a forest can be read off its outline (`faithful_lines`).
-/

namespace Lineage

/-- The number of groups of four characters before the label of a line. -/
def OutlineLine.level (l : OutlineLine) : Nat :=
  l.rails.length / 4

namespace Outline

open Forest

variable {f : Forest} {ds : List Declaration} {i p : NodeId} {indent : String}
  {siblings : List (NodeId × Relation)} {path : List NodeId} {bars groups : List String}
  {before drawing : List OutlineLine} {l u : OutlineLine} {k : Nat}

/-- Class `i` is the last of the classes directly below class `p`. -/
def LastBelow (f : Forest) (p i : NodeId) : Prop :=
  (below f p).getLast?.map Prod.fst = some i

instance (f : Forest) (p i : NodeId) : Decidable (LastBelow f p i) :=
  inferInstanceAs (Decidable (_ = _))

/-- The characters before the label of line `l` are `groups`, one for each class after the first
on the `path` from a root down to the class of the line.  The last group is a connector and the
others are bars or blanks, chosen by whether the class is the last one below the class before. -/
structure Shows (f : Forest) (l : OutlineLine) (path : List NodeId) (groups : List String) :
    Prop where
  down : f.Path path l.node
  rails : l.rails = String.join groups
  length : groups.length + 1 = path.length
  four : ∀ g ∈ groups, g.length = 4
  group : ∀ j p i, path[j]? = some p → path[j + 1]? = some i →
    groups[j]? = some
      (if j + 1 = groups.length then if LastBelow f p i then "└── " else "├── "
      else if LastBelow f p i then "    " else "│   ")

/-- The nearest of the lines `before` that has the given level. -/
def nearest? (before : List OutlineLine) (level : Nat) : Option OutlineLine :=
  before.reverse.find? fun u => u.level == level

/-- Line `l` stands where the lines `before` it say: without any group it is the line of a root,
and else the nearest line with one group less is the line of the class that it hangs below. -/
def Placed (f : Forest) (before : List OutlineLine) (l : OutlineLine) : Prop :=
  l.level = 0 ∧ l.relation = .root ∧ f.parent? l.node = none ∧ f.container? l.node = none ∨
    0 < l.level ∧ ∃ u, nearest? before (l.level - 1) = some u ∧
      (l.relation = .inherits ∧ f.parent? l.node = some u.node ∨
        l.relation = .nested ∧ f.container? l.node = some u.node)

/-- The outline `lines` shows the forest as it is. -/
structure Faithful (f : Forest) (lines : List OutlineLine) : Prop where
  /-- Every class has exactly one line. -/
  once : (lines.map (·.node)).Perm (List.range f.size)
  /-- The roots stand in their order, and below each class first the classes that derive from it
  and then those declared inside it. -/
  preorder : Preorder f (f.roots.map fun r => (r, .root)) (lines.map fun l => (l.node, l.relation))
  /-- The characters before a label show the way down to the class. -/
  shows : ∀ l ∈ lines, ∃ path groups, Shows f l path groups ∧ l.level = groups.length
  /-- The numbers of groups show what each class hangs below. -/
  placed : ∀ n l, lines[n]? = some l → Placed f (lines.take n) l

/-! ### Groups of four characters -/

@[simp]
theorem length_connector (isLast : Bool) : (connector isLast).length = 4 := by
  cases isLast <;> rfl

@[simp]
theorem length_continuation (isLast : Bool) : (continuation isLast).length = 4 := by
  cases isLast <;> rfl

theorem length_join_of_four (h : ∀ g ∈ groups, g.length = 4) :
    (String.join groups).length = 4 * groups.length := by
  induction groups with
  | nil => rfl
  | cons g groups ih =>
    have hg := h g (List.mem_cons_self ..)
    have hrest := ih fun g hg => h g (List.mem_cons_of_mem _ hg)
    rw [String.length_join] at hrest ⊢
    rw [List.map_cons, List.sum_cons, hrest, hg, List.length_cons]
    omega

/-- A line has as many groups as its level says. -/
theorem Shows.level (h : Shows f l path groups) : l.level = groups.length := by
  unfold OutlineLine.level
  rw [h.rails, length_join_of_four h.four]
  omega

/-! ### The way down to a class -/

theorem getLast?_of_path (h : f.Path path i) : path.getLast? = some i := by
  cases h with
  | root => rfl
  | down => simp

/-- The steps of a path with one more class are its own steps and the one to the new class. -/
theorem step_of_snoc {q j : NodeId} {m : Nat} (hlast : path.getLast? = some p)
    (hq : (path ++ [i])[m]? = some q) (hj : (path ++ [i])[m + 1]? = some j) :
    m + 1 < path.length ∧ path[m]? = some q ∧ path[m + 1]? = some j ∨
      m + 1 = path.length ∧ q = p ∧ j = i := by
  rw [List.getElem?_append] at hq hj
  by_cases hm : m + 1 < path.length
  · rw [if_pos (by omega)] at hq
    rw [if_pos hm] at hj
    exact Or.inl ⟨hm, hq, hj⟩
  · rw [if_neg hm] at hj
    rw [List.getElem?_singleton] at hj
    split_ifs at hj with hzero
    obtain rfl := Option.some.inj hj
    have hlen : 0 < path.length := List.length_pos_of_mem (List.mem_of_getLast? hlast)
    rw [if_pos (by omega)] at hq
    rw [List.getLast?_eq_getElem?, show path.length - 1 = m by omega, hq] at hlast
    exact Or.inr ⟨by omega, Option.some.inj hlast, rfl⟩

/-- The bars and blanks on the lines below the class at the end of `path`. -/
structure Bars (f : Forest) (path : List NodeId) (bars : List String) : Prop where
  length : bars.length + 1 = path.length
  four : ∀ b ∈ bars, b.length = 4
  bar : ∀ j p i, path[j]? = some p → path[j + 1]? = some i →
    bars[j]? = some (continuation (decide (LastBelow f p i)))

/-- Below a root there are no bars. -/
theorem bars_root (f : Forest) (r : NodeId) : Bars f [r] [] :=
  ⟨rfl, by simp, by simp⟩

/-- One level further down there is one bar or blank more. -/
theorem Bars.push (h : Bars f path bars) (hlast : path.getLast? = some p) :
    Bars f (path ++ [i]) (bars ++ [continuation (decide (LastBelow f p i))]) := by
  refine ⟨by simp [h.length], ?_, fun m q j hq hj => ?_⟩
  · intro b hb
    rcases List.mem_append.1 hb with hb | hb
    · exact h.four b hb
    · rw [List.mem_singleton.1 hb, length_continuation]
  · have hlen := h.length
    rcases step_of_snoc hlast hq hj with ⟨hm, hq, hj⟩ | ⟨hm, rfl, rfl⟩
    · rw [List.getElem?_append_left (by omega)]
      exact h.bar m q j hq hj
    · rw [List.getElem?_append_right (by omega), show m - bars.length = 0 by omega]
      rfl

/-- The line of a class shows the bars of the class above and a connector. -/
theorem Bars.shows (h : Bars f path bars) (hpath : f.Path path p)
    (hbelow : i ∈ f.childrenOf p ∨ i ∈ f.nestedOf p) (relation : Relation) :
    Shows f (line f i relation (String.join bars ++ connector (decide (LastBelow f p i))))
      (path ++ [i]) (bars ++ [connector (decide (LastBelow f p i))]) := by
  refine ⟨.down hpath hbelow, ?_, by simp [h.length], ?_, fun m q j hq hj => ?_⟩
  · rw [String.join_append]
    simp [line, String.join]
  · intro g hg
    rcases List.mem_append.1 hg with hg | hg
    · exact h.four g hg
    · rw [List.mem_singleton.1 hg, length_connector]
  · have hlen := h.length
    rcases step_of_snoc (getLast?_of_path hpath) hq hj with ⟨hm, hq, hj⟩ | ⟨hm, rfl, rfl⟩
    · rw [List.getElem?_append_left (by omega), h.bar m q j hq hj, if_neg (by simp; omega)]
      simp [continuation]
    · rw [List.getElem?_append_right (by omega), if_pos (by simp; omega),
        show m - bars.length = 0 by omega]
      simp [connector]

/-- No more siblings follow the last class below a class, and others follow the other ones. -/
theorem isEmpty_eq_lastBelow {relation : Relation} {rest : List (NodeId × Relation)}
    (hnodup : ((below f p).map Prod.fst).Nodup) (h : (i, relation) :: rest <:+ below f p) :
    rest.isEmpty = decide (LastBelow f p i) := by
  obtain ⟨front, hfront⟩ := h
  rw [← hfront, List.map_append, List.map_cons] at hnodup
  have hlast : LastBelow f p i ↔ (i :: rest.map Prod.fst).getLast? = some i := by
    unfold LastBelow
    rw [← hfront, ← List.getLast?_map, List.map_append, List.map_cons, List.getLast?_append_cons]
  rw [Bool.eq_iff_iff, decide_eq_true_iff, hlast]
  cases rest with
  | nil => simp
  | cons x rest =>
    -- the last class is one after `i`, and `i` does not stand there again
    have hfresh := (List.nodup_cons.1 hnodup.of_append_right).1
    refine iff_of_false (by simp) fun hlast => hfresh ?_
    rw [List.map_cons, List.getLast?_cons_cons] at hlast
    exact List.mem_of_getLast? hlast

/-- Every line of a drawing shows the way down to its class, if the indent shows the way down to
the class above. -/
theorem Draws.shows (h : Draws (build ds) indent siblings drawing) :
    ∀ {path : List NodeId} {p : NodeId} {bars : List String}, (build ds).Path path p →
      Bars (build ds) path bars → indent = String.join bars →
      siblings <:+ Outline.below (build ds) p →
      ∀ l ∈ drawing, ∃ path groups, Shows (build ds) l path groups := by
  induction h with
  | nil => intro _ _ _ _ _ _ _ l hl; cases hl
  | @cons indent i relation rest under after _ _ ihdown ihnext =>
    intro path p bars hpath hbars hindent hsiblings l hl
    have hnodup := nodup_map_fst_below ds p
    have hlast := isEmpty_eq_lastBelow hnodup hsiblings
    have hmem : i ∈ (Outline.below (build ds) p).map Prod.fst :=
      List.mem_map_of_mem (f := Prod.fst) (hsiblings.subset (List.mem_cons_self ..))
    rw [mem_map_fst_below, ← mem_below_build] at hmem
    rw [hlast, hindent] at hl ihdown
    rcases List.mem_cons.1 hl with rfl | hl
    · exact ⟨_, _, hbars.shows hpath hmem relation⟩
    rcases List.mem_append.1 hl with hl | hl
    · refine ihdown (.down hpath hmem) (hbars.push (getLast?_of_path hpath)) ?_
        (List.suffix_refl _) l hl
      rw [String.join_append]
      simp [String.join]
    · exact ihnext hpath hbars hindent ((List.suffix_cons _ _).trans hsiblings) l hl

/-- Every line of the outline shows the way down to its class. -/
theorem shows_lines (ds : List Declaration) (hl : l ∈ lines (build ds)) :
    ∃ path groups, Shows (build ds) l path groups := by
  obtain ⟨r, hr, hl⟩ := List.mem_flatMap.1 hl
  have hpath : (build ds).Path [r] r := .root hr
  rcases List.mem_cons.1 hl with rfl | hl
  · exact ⟨[r], [], hpath, rfl, rfl, by simp, by simp⟩
  · exact (draws_descent (mem_roots_build.1 hr).1 "").shows hpath (bars_root _ r) rfl
      (List.suffix_refl _) l hl

/-! ### The line of the class above -/

theorem nearest?_append (before more : List OutlineLine) (level : Nat) :
    nearest? (before ++ more) level = (nearest? more level).or (nearest? before level) := by
  unfold nearest?
  rw [List.reverse_append, List.find?_append]

/-- Lines of other levels do not matter. -/
theorem nearest?_append_of_ne {more : List OutlineLine} {level : Nat}
    (h : ∀ l ∈ more, l.level ≠ level) :
    nearest? (before ++ more) level = nearest? before level := by
  have hnone : nearest? more level = none := by
    unfold nearest?
    rw [List.find?_eq_none]
    intro l hl
    simpa using h l (List.mem_reverse.1 hl)
  rw [nearest?_append, hnone, Option.none_or]

/-- A line is the nearest one of its level to the line after it. -/
theorem nearest?_append_self (before : List OutlineLine) (hl : l.level = k) :
    nearest? (before ++ [l]) k = some l := by
  rw [nearest?_append]
  simp [nearest?, hl]

/-- `P` holds of every line of `drawing` with the lines before it, the first of which are
`before`. -/
def EachAfter (P : List OutlineLine → OutlineLine → Prop) (before drawing : List OutlineLine) :
    Prop :=
  ∀ n l, drawing[n]? = some l → P (before ++ drawing.take n) l

section EachAfter

variable {P : List OutlineLine → OutlineLine → Prop}

theorem eachAfter_nil : EachAfter P before [] := by
  intro n l hl
  simp at hl

theorem EachAfter.cons (hl : P before l) (hrest : EachAfter P (before ++ [l]) drawing) :
    EachAfter P before (l :: drawing) := by
  intro n u hu
  cases n with
  | zero =>
    obtain rfl := Option.some.inj hu
    simpa using hl
  | succ n =>
    have hrest := hrest n u hu
    rwa [List.append_assoc] at hrest

theorem EachAfter.append {first second : List OutlineLine} (hfirst : EachAfter P before first)
    (hsecond : EachAfter P (before ++ first) second) : EachAfter P before (first ++ second) := by
  intro n l hl
  rw [List.getElem?_append] at hl
  rw [List.take_append]
  split_ifs at hl with hn
  · have hfirst := hfirst n l hl
    rwa [show n - first.length = 0 by omega, List.take_zero, List.append_nil]
  · have hsecond := hsecond _ l hl
    rwa [List.take_of_length_le (by omega), ← List.append_assoc]

end EachAfter

theorem level_line (f : Forest) (i : NodeId) (relation : Relation) (hindent : indent.length = 4 * k)
    (isLast : Bool) : (line f i relation (indent ++ connector isLast)).level = k + 1 := by
  unfold OutlineLine.level line
  rw [String.length_append, hindent, length_connector]
  omega

/-- The lines of a drawing have more groups than its indent. -/
theorem Draws.lt_level (h : Draws f indent siblings drawing) :
    ∀ {k : Nat}, indent.length = 4 * k → ∀ l ∈ drawing, k < l.level := by
  induction h with
  | nil => intro _ _ l hl; cases hl
  | @cons indent i relation rest under after _ _ ihdown ihnext =>
    intro k hindent l hl
    rcases List.mem_cons.1 hl with rfl | hl
    · rw [level_line f i relation hindent]
      exact Nat.lt_succ_self k
    rcases List.mem_append.1 hl with hl | hl
    · have hlevel : k + 1 < l.level := by
        refine ihdown ?_ l hl
        rw [String.length_append, hindent, length_continuation]
        omega
      omega
    · exact ihnext hindent l hl

/-- Every line of a drawing finds the line of the class above it, if the nearest line with as many
groups as the indent is that of the class the drawing hangs below. -/
theorem Draws.placed (h : Draws (build ds) indent siblings drawing) :
    ∀ {k : Nat} {before : List OutlineLine} {u : OutlineLine} {p : NodeId},
      indent.length = 4 * k → nearest? before k = some u → u.node = p →
      (∀ x ∈ siblings, x ∈ Outline.below (build ds) p) →
      EachAfter (Placed (build ds)) before drawing := by
  induction h with
  | nil => intro _ _ _ _ _ _ _ _; exact eachAfter_nil
  | @cons indent i relation rest under after hdown _ ihdown ihnext =>
    intro k before u p hindent hnearest hnode hsiblings
    have hlevel := level_line (build ds) i relation hindent rest.isEmpty
    have hindent' : (indent ++ continuation rest.isEmpty).length = 4 * (k + 1) := by
      rw [String.length_append, hindent, length_continuation]
      omega
    refine .cons ?_ (.append ?_ ?_)
    · refine Or.inr ⟨by omega, u, ?_, ?_⟩
      · rw [hlevel]
        exact hnearest
      · rw [hnode]
        exact mem_below_iff.1 (hsiblings _ (List.mem_cons_self ..))
    · exact ihdown hindent' (nearest?_append_self before hlevel) rfl fun x hx => hx
    · refine ihnext hindent ?_ hnode fun x hx => hsiblings x (List.mem_cons_of_mem _ hx)
      -- what was drawn for `i` has more groups, so the line of `p` is still the nearest one
      rw [List.append_assoc, nearest?_append_of_ne, hnearest]
      intro l hl
      rcases List.mem_cons.1 hl with rfl | hl
      · omega
      · have hunder := hdown.lt_level hindent' l hl
        omega

/-- Every line of the outline finds the line of the class above it. -/
theorem placed_lines (ds : List Declaration) :
    EachAfter (Placed (build ds)) [] (lines (build ds)) := by
  suffices h : ∀ (roots : List NodeId) before, (∀ r ∈ roots, r ∈ (build ds).roots) →
      EachAfter (Placed (build ds)) before (roots.flatMap (subtree (build ds))) from
    h _ [] fun r hr => hr
  intro roots
  induction roots with
  | nil => intro _ _; exact eachAfter_nil
  | cons r roots ih =>
    intro before hroots
    obtain ⟨hr, habove⟩ := mem_roots_build.1 (hroots r (List.mem_cons_self ..))
    rw [above?, Option.or_eq_none_iff] at habove
    have hlevel : (line (build ds) r .root "").level = 0 := by simp [OutlineLine.level, line]
    rw [List.flatMap_cons, subtree]
    refine .append (.cons (Or.inl ⟨hlevel, rfl, habove⟩) ?_) ?_
    · exact (draws_descent hr "").placed rfl (nearest?_append_self before hlevel) rfl
        fun x hx => hx
    · exact ih _ fun s hs => hroots s (List.mem_cons_of_mem _ hs)

/-- **The outline of a built forest is faithful.**  Every class has one line, the lines are in
pre-order, the characters before a label show for each class on the way down whether it is the
last of its siblings, and the nearest line with one group less is the line of the class above. -/
theorem faithful_lines (ds : List Declaration) : Faithful (build ds) (lines (build ds)) where
  once := nodes_lines_perm ds
  preorder := preorder_lines ds
  shows := by
    intro l hl
    obtain ⟨path, groups, hshows⟩ := shows_lines ds hl
    exact ⟨path, groups, hshows, hshows.level⟩
  placed := by
    intro n l hl
    exact placed_lines ds n l hl

end Outline

end Lineage
