import Lineage.Proofs.Chain

/-!
# What the names of a table refer to

A table built from a list has pairwise different qualified names (`distinct_ofList`).  The target
of a class is the class it should hang below: the one its container name refers to
(`ContainerTarget`), else the one its base name refers to (`BaseTarget`).  Both are stated here as
relations on the names of a table, and the look-ups `containerOf` and `baseOf` are shown to find
exactly these targets (`containerOf_eq_some_iff`, `heir?_eq_some_iff`, `target?_eq_some_iff`).
-/

namespace Lineage.Table

open Chain

variable {t : Table} {i j : NodeId} {name : String}

/-! ### Names -/

/-- Class `i` has the given simple name. -/
def Named (t : Table) (name : String) (i : NodeId) : Prop :=
  ∃ d, t.entries[i]? = some d ∧ d.name = name

/-- Class `i` has the given qualified name. -/
def Qualified (t : Table) (name : String) (i : NodeId) : Prop :=
  ∃ d, t.entries[i]? = some d ∧ d.qualifiedName = name

/-- Class `i` is the first one with the given simple name. -/
def FirstNamed (t : Table) (name : String) (i : NodeId) : Prop :=
  t.Named name i ∧ ∀ j < i, ¬ t.Named name j

/-- No two classes have one qualified name. -/
def Distinct (t : Table) : Prop :=
  ∀ name i j, t.Qualified name i → t.Qualified name j → i = j

theorem Named.lt_size (h : t.Named name i) : i < t.size := by
  obtain ⟨d, hd, _⟩ := h
  exact (Array.getElem?_eq_some_iff.1 hd).1

theorem Qualified.lt_size (h : t.Qualified name i) : i < t.size := by
  obtain ⟨d, hd, _⟩ := h
  exact (Array.getElem?_eq_some_iff.1 hd).1

/-- The search for a simple name finds the first class that has it. -/
theorem findNamed?_eq_some_iff : t.findNamed? name = some i ↔ t.FirstNamed name i := by
  unfold findNamed? FirstNamed Named
  rw [Array.findIdx?_eq_some_iff_getElem]
  constructor
  · rintro ⟨hi, hname, hfirst⟩
    refine ⟨⟨t.entries[i], Array.getElem?_eq_getElem hi, by simpa using hname⟩, ?_⟩
    rintro j hj ⟨d, hd, hdname⟩
    obtain ⟨_, rfl⟩ := Array.getElem?_eq_some_iff.1 hd
    exact absurd hdname (by simpa using hfirst j hj)
  · rintro ⟨⟨d, hd, hname⟩, hfirst⟩
    obtain ⟨hi, rfl⟩ := Array.getElem?_eq_some_iff.1 hd
    refine ⟨hi, by simpa using hname, fun j hj => ?_⟩
    have hnot := hfirst j hj
    rw [Bool.not_eq_true, beq_eq_false_iff_ne]
    exact fun hjname => hnot ⟨_, Array.getElem?_eq_getElem _, hjname⟩

/-- The search for a qualified name fails when no class has it. -/
theorem findQualified?_eq_none_iff :
    t.findQualified? name = none ↔ ∀ i, ¬ t.Qualified name i := by
  unfold findQualified? Qualified
  rw [Array.findIdx?_eq_none_iff]
  constructor
  · rintro h i ⟨d, hd, rfl⟩
    simpa using h d (Array.mem_of_getElem? hd)
  · intro h d hd
    obtain ⟨i, hi, rfl⟩ := Array.getElem_of_mem hd
    rw [beq_eq_false_iff_ne]
    exact fun hname => h i ⟨_, Array.getElem?_eq_getElem hi, hname⟩

/-- What the search for a qualified name finds has that name. -/
theorem qualified_of_findQualified? (h : t.findQualified? name = some i) :
    t.Qualified name i := by
  unfold findQualified? at h
  obtain ⟨hi, hname, _⟩ := Array.findIdx?_eq_some_iff_getElem.1 h
  exact ⟨_, Array.getElem?_eq_getElem hi, by simpa using hname⟩

/-- In a table of distinct names, the search for a qualified name finds the class that has it. -/
theorem findQualified?_eq_some_iff (ht : t.Distinct) :
    t.findQualified? name = some i ↔ t.Qualified name i := by
  refine ⟨qualified_of_findQualified?, fun hi => ?_⟩
  cases hfind : t.findQualified? name with
  | none => exact absurd hi (findQualified?_eq_none_iff.1 hfind i)
  | some j => rw [ht name j i (qualified_of_findQualified? hfind) hi]

/-! ### Inserting -/

/-- A declaration put into a table takes the place of its qualified name, or a new one. -/
theorem qualified_insert_iff (t : Table) (d : Declaration) :
    (t.insert d).Qualified name i ↔
      t.Qualified name i ∨
        (∀ j, ¬ t.Qualified d.qualifiedName j) ∧ d.qualifiedName = name ∧ i = t.size := by
  unfold insert
  cases hfind : t.findQualified? d.qualifiedName with
  | some k =>
    -- the old declaration at `k` has the same qualified name as `d`
    obtain ⟨e, he, hename⟩ := qualified_of_findQualified? hfind
    have hk : k < t.entries.size := (Array.getElem?_eq_some_iff.1 he).1
    have hnone : ¬ ∀ j, ¬ t.Qualified d.qualifiedName j := fun h => h k ⟨e, he, hename⟩
    rw [or_iff_left fun h => hnone h.1]
    unfold Qualified
    by_cases hik : k = i
    · subst hik
      rw [Array.getElem?_setIfInBounds_self_of_lt hk, he]
      simp [hename]
    · rw [Array.getElem?_setIfInBounds_ne hik]
  | none =>
    -- the name is new, so `d` is the only class that can have it
    have hnone := findQualified?_eq_none_iff.1 hfind
    simp only [hnone, not_false_eq_true, implies_true, true_and]
    unfold Qualified
    rw [Array.getElem?_push]
    by_cases hi : i = t.entries.size
    · subst hi
      simp [size]
    · simp [hi, size]

/-- Inserting keeps the qualified names distinct. -/
theorem Distinct.insert (ht : t.Distinct) (d : Declaration) : (t.insert d).Distinct := by
  intro name i j hi hj
  rw [qualified_insert_iff] at hi hj
  rcases hi with hi | ⟨hfresh, rfl, rfl⟩
  · rcases hj with hj | ⟨hfresh, rfl, _⟩
    · exact ht name i j hi hj
    · exact absurd hi (hfresh i)
  · rcases hj with hj | ⟨_, _, rfl⟩
    · exact absurd hj (hfresh j)
    · rfl

/-- The qualified names of a table built from a list are distinct. -/
theorem distinct_ofList (ds : List Declaration) : (ofList ds).Distinct := by
  suffices h : ∀ t : Table, t.Distinct → (ds.foldl Table.insert t).Distinct by
    refine h {} ?_
    rintro name i j ⟨d, hd, _⟩
    simp at hd
  induction ds with
  | nil => exact fun t ht => ht
  | cons d ds ih => exact fun t ht => ih (t.insert d) (ht.insert d)

/-- Declarations of pairwise different qualified names, new to a table, are put at its end. -/
theorem foldl_insert_of_nodup (ds : List Declaration)
    (hds : (ds.map Declaration.qualifiedName).Nodup) :
    ∀ t : Table, (∀ d ∈ ds, ∀ j, ¬ t.Qualified d.qualifiedName j) →
      ds.foldl insert t = ⟨t.entries ++ ds.toArray⟩ := by
  induction ds with
  | nil => intro t _; simp
  | cons d ds ih =>
    intro t hfresh
    rw [List.map_cons, List.nodup_cons] at hds
    have hinsert : t.insert d = ⟨t.entries.push d⟩ := by
      unfold insert
      rw [findQualified?_eq_none_iff.2 (hfresh d (List.mem_cons_self ..))]
    -- of the names that follow, none is in the table and none is that of `d`
    have hfresh' : ∀ e ∈ ds, ∀ j, ¬ (t.insert d).Qualified e.qualifiedName j := by
      intro e he j hj
      rw [qualified_insert_iff] at hj
      rcases hj with hj | ⟨_, hname, _⟩
      · exact hfresh e (List.mem_cons_of_mem _ he) j hj
      · rw [hname] at hds
        exact hds.1 (List.mem_map_of_mem he)
    rw [List.foldl_cons, ih hds.2 _ hfresh', hinsert]
    simp

/-- A list of declarations with pairwise different qualified names is its own table. -/
theorem entries_ofList_of_nodup {ds : List Declaration}
    (hds : (ds.map Declaration.qualifiedName).Nodup) : (ofList ds).entries = ds.toArray := by
  unfold ofList
  rw [foldl_insert_of_nodup ds hds {} (by rintro d _ j ⟨e, he, _⟩; simp at he)]
  simp

/-! ### Targets -/

/-- The class that class `i` gives as its container: the first other class of that name. -/
def ContainerTarget (t : Table) (i c : NodeId) : Prop :=
  ∃ d name, t.entries[i]? = some d ∧ d.container = some name ∧
    c ≠ i ∧ t.Named name c ∧ ∀ j < c, j ≠ i → ¬ t.Named name j

/-- What a base name written in a scope refers to: the class with that qualified name, else the
class of that name in the scope, else the first class with that simple name. -/
def Refers (t : Table) (scope : Option String) (base : String) (b : NodeId) : Prop :=
  t.Qualified base b ∨
    (∀ j, ¬ t.Qualified base j) ∧
      ((∃ s, scope = some s ∧ t.Qualified (s ++ "." ++ base) b) ∨
        (∀ s, scope = some s → ∀ j, ¬ t.Qualified (s ++ "." ++ base) j) ∧
          t.FirstNamed base b)

/-- The class that class `i` derives from, where `i` has no container target: what its non-empty
base name refers to. -/
def BaseTarget (t : Table) (i b : NodeId) : Prop :=
  (∀ c, ¬ t.ContainerTarget i c) ∧
    ∃ d base, t.entries[i]? = some d ∧ d.base = some base ∧ base ≠ "" ∧ t.Refers d.scope base b

/-- The class that class `i` should hang below. -/
def Target (t : Table) (i j : NodeId) : Prop :=
  t.ContainerTarget i j ∨ t.BaseTarget i j

/-- Going from target to target leads from one class to another. -/
abbrev Reaches (t : Table) : NodeId → NodeId → Prop :=
  Relation.ReflTransGen t.Target

/-- Class `i` lies on a loop of targets. -/
abbrev InLoop (t : Table) (i : NodeId) : Prop :=
  Relation.TransGen t.Target i i

/-- The base class of class `i`, if `i` has no container. -/
def heir? (t : Table) (i : NodeId) : Option NodeId :=
  match t.containerOf i with
  | some _ => none
  | none => t.baseOf i

/-- The class that class `i` should hang below, found by the look-ups. -/
def target? (t : Table) (i : NodeId) : Option NodeId :=
  (t.containerOf i).or (t.baseOf i)

/-- The look-up of the container finds the container target. -/
theorem containerOf_eq_some_iff {c : NodeId} :
    t.containerOf i = some c ↔ t.ContainerTarget i c := by
  unfold containerOf ContainerTarget
  have hnamed : ∀ name j, (t.entries[j]?.map (·.name) == some name) = true ↔ t.Named name j := by
    intro name j
    rw [beq_iff_eq, Option.map_eq_some_iff]
    rfl
  constructor
  · intro h
    obtain ⟨d, hd, h⟩ := Option.bind_eq_some_iff.1 h
    obtain ⟨name, hname, h⟩ := Option.bind_eq_some_iff.1 h
    obtain ⟨hc, _, hfirst⟩ := List.find?_range_eq_some.1 h
    rw [Bool.and_eq_true, bne_iff_ne, hnamed] at hc
    refine ⟨d, name, hd, hname, hc.1, hc.2, fun j hj hji hjname => ?_⟩
    have hnot := hfirst j hj
    rw [Bool.not_eq_true', Bool.and_eq_false_iff] at hnot
    rcases hnot with hnot | hnot
    · rw [bne_eq_false_iff_eq] at hnot
      exact hji hnot
    · rw [(hnamed name j).2 hjname] at hnot
      cases hnot
  · rintro ⟨d, name, hd, hname, hci, hc, hfirst⟩
    refine Option.bind_eq_some_iff.2 ⟨d, hd, Option.bind_eq_some_iff.2 ⟨name, hname, ?_⟩⟩
    refine List.find?_range_eq_some.2 ⟨?_, List.mem_range.2 hc.lt_size, fun j hj => ?_⟩
    · rw [Bool.and_eq_true, bne_iff_ne, hnamed]
      exact ⟨hci, hc⟩
    · rw [Bool.not_eq_true', Bool.and_eq_false_iff, bne_eq_false_iff_eq]
      by_cases hji : j = i
      · exact Or.inl hji
      · refine Or.inr ?_
        rw [← Bool.not_eq_true, hnamed]
        exact hfirst j hj hji

/-- The look-up of the container fails when there is no container target. -/
theorem containerOf_eq_none_iff :
    t.containerOf i = none ↔ ∀ c, ¬ t.ContainerTarget i c := by
  rw [Option.eq_none_iff_forall_ne_some]
  exact forall_congr' fun c => not_congr containerOf_eq_some_iff

/-- The look-ups of a base name, one after the other, find what it refers to. -/
theorem refers_iff (ht : t.Distinct) {scope : Option String} {base : String} {b : NodeId} :
    (t.findQualified? base).or
        ((scope.bind (fun s => t.findQualified? (s ++ "." ++ base))).or
          (t.findNamed? base)) = some b ↔ t.Refers scope base b := by
  unfold Refers
  rw [Option.or_eq_some_iff, Option.or_eq_some_iff, findQualified?_eq_some_iff ht,
    findQualified?_eq_none_iff, Option.bind_eq_some_iff, Option.bind_eq_none_iff,
    findNamed?_eq_some_iff]
  simp only [findQualified?_eq_some_iff ht, findQualified?_eq_none_iff]

/-- The look-up of the base finds what the base name refers to. -/
theorem baseOf_eq_some_iff (ht : t.Distinct) {b : NodeId} :
    t.baseOf i = some b ↔
      ∃ d base, t.entries[i]? = some d ∧ d.base = some base ∧ base ≠ "" ∧
        t.Refers d.scope base b := by
  have hdeclared : ∀ (d : Declaration) base,
      d.declaredBase = some base ↔ d.base = some base ∧ base ≠ "" := by
    intro d base
    unfold Declaration.declaredBase
    rw [Option.filter_eq_some_iff, Bool.not_eq_true', ← Bool.not_eq_true, String.isEmpty_iff]
  unfold baseOf
  constructor
  · intro h
    obtain ⟨d, hd, h⟩ := Option.bind_eq_some_iff.1 h
    obtain ⟨base, hbase, h⟩ := Option.bind_eq_some_iff.1 h
    obtain ⟨hbase, hne⟩ := (hdeclared d base).1 hbase
    exact ⟨d, base, hd, hbase, hne, (refers_iff ht).1 h⟩
  · rintro ⟨d, base, hd, hbase, hne, h⟩
    refine Option.bind_eq_some_iff.2 ⟨d, hd, Option.bind_eq_some_iff.2 ⟨base, ?_, ?_⟩⟩
    · exact (hdeclared d base).2 ⟨hbase, hne⟩
    · exact (refers_iff ht).2 h

theorem heir?_of_containerOf {c : NodeId} (h : t.containerOf i = some c) : t.heir? i = none := by
  unfold heir?
  rw [h]

theorem heir?_of_containerOf_none (h : t.containerOf i = none) : t.heir? i = t.baseOf i := by
  unfold heir?
  rw [h]

/-- The base class of a class without a container is its base target. -/
theorem heir?_eq_some_iff (ht : t.Distinct) {b : NodeId} :
    t.heir? i = some b ↔ t.BaseTarget i b := by
  unfold BaseTarget
  cases hc : t.containerOf i with
  | some c =>
    rw [heir?_of_containerOf hc]
    refine iff_of_false (by simp) fun h => ?_
    exact h.1 c (containerOf_eq_some_iff.1 hc)
  | none =>
    rw [heir?_of_containerOf_none hc, baseOf_eq_some_iff ht,
      and_iff_right (containerOf_eq_none_iff.1 hc)]

/-- A target is a container or, failing that, a base. -/
theorem target?_eq_or_heir? (t : Table) (i : NodeId) :
    t.target? i = (t.containerOf i).or (t.heir? i) := by
  unfold target?
  cases hc : t.containerOf i with
  | some c => rfl
  | none => rw [heir?_of_containerOf_none hc]

/-- The look-ups find exactly the targets. -/
theorem target?_eq_some_iff (ht : t.Distinct) : t.target? i = some j ↔ t.Target i j := by
  unfold Target
  rw [target?_eq_or_heir?, Option.or_eq_some_iff, containerOf_eq_some_iff,
    heir?_eq_some_iff ht]
  refine or_congr_right ⟨And.right, fun h => ⟨?_, h⟩⟩
  exact containerOf_eq_none_iff.2 h.1

/-- The chains of targets are the chains of the look-ups. -/
theorem leads_target?_iff (ht : t.Distinct) :
    Leads t.target? i j ↔ t.Reaches i j := by
  have hstep : (fun a b => t.target? a = some b) = t.Target := by
    funext a b
    exact propext (target?_eq_some_iff ht)
  unfold Leads Reaches
  rw [hstep]

/-- The loops of targets are the loops of the look-ups. -/
theorem onLoop_target?_iff (ht : t.Distinct) :
    OnLoop t.target? i ↔ t.InLoop i := by
  have hstep : (fun a b => t.target? a = some b) = t.Target := by
    funext a b
    exact propext (target?_eq_some_iff ht)
  unfold OnLoop InLoop
  rw [hstep]

/-- Inheritance targets are targets. -/
theorem narrows_heir? (t : Table) : Narrows t.heir? t.target? := by
  intro i j hij
  unfold heir? at hij
  rw [target?]
  cases hc : t.containerOf i with
  | some c => rw [hc] at hij; cases hij
  | none => rw [hc] at hij; exact hij

/-- Targets lead from the classes of a table to classes of the table. -/
theorem within_target? (t : Table) : Within t.target? t.size := by
  intro i j hij
  have hsize : ∀ {d}, t.entries[i]? = some d → i < t.size := fun hd =>
    (Array.getElem?_eq_some_iff.1 hd).1
  unfold target? at hij
  rcases Option.or_eq_some_iff.1 hij with hc | ⟨_, hb⟩
  · obtain ⟨d, name, hd, _, _, hj, _⟩ := containerOf_eq_some_iff.1 hc
    exact ⟨hsize hd, hj.lt_size⟩
  · obtain ⟨d, hd, hb⟩ := Option.bind_eq_some_iff.1 hb
    obtain ⟨base, _, hb⟩ := Option.bind_eq_some_iff.1 hb
    refine ⟨hsize hd, ?_⟩
    rcases Option.or_eq_some_iff.1 hb with hq | ⟨_, hb⟩
    · exact (qualified_of_findQualified? hq).lt_size
    · rcases Option.or_eq_some_iff.1 hb with hq | ⟨_, hn⟩
      · obtain ⟨s, _, hq⟩ := Option.bind_eq_some_iff.1 hq
        exact (qualified_of_findQualified? hq).lt_size
      · exact (findNamed?_eq_some_iff.1 hn).1.lt_size

end Lineage.Table
