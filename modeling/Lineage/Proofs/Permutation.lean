import Lineage.Proofs.Depth
import Lineage.Proofs.Renaming
import Lineage.Proofs.Targets
import Mathlib.Logic.Equiv.Basic

/-!
# The order of the declarations

The report of a list of declarations does not depend on their order, if their qualified names and
their simple names are pairwise different and no chain of targets loops (`report_build_perm`).
A permutation of the list moves the classes of the table (`Matches`).  With names that are unique,
names refer to the same classes before and after, so that targets, links, depths and sorted lists
are moved along, and the two forests differ in the numbers of their classes only
(`renames_build`).
-/

namespace Lineage.Chain

variable {σ : Equiv.Perm NodeId} {step step' : NodeId → Option NodeId} {i : NodeId} {n : Nat}

/-- Steps that correspond through a permutation of the classes. -/
theorem map_eq_of_iff (h : ∀ i j, step' (σ i) = some (σ j) ↔ step i = some j) (i : NodeId) :
    step' (σ i) = (step i).map σ := by
  refine Option.ext fun k => ?_
  obtain ⟨j, rfl⟩ := σ.surjective k
  rw [h, Option.map_eq_some_iff]
  constructor
  · exact fun hj => ⟨j, hj, rfl⟩
  · rintro ⟨j', hj', heq⟩
    rw [hj', σ.injective heq]

/-- Corresponding chains have the same number of steps. -/
theorem Height.map (h : ∀ i, step' (σ i) = (step i).map σ) (hi : Height step i n) :
    Height step' (σ i) n := by
  induction hi with
  | top htop => exact .top (by rw [h, htop]; rfl)
  | up hij _ ih => exact .up (by rw [h, hij]; rfl) ih

end Lineage.Chain

namespace Lineage.Table

open Chain

variable {t t' : Table} {σ : Equiv.Perm NodeId} {i j : NodeId} {name : String}

/-- No two classes have one simple name. -/
def NamesDistinct (t : Table) : Prop :=
  ∀ name i j, t.Named name i → t.Named name j → i = j

/-- The permutation `σ` takes the classes of one table to those of the other. -/
structure Matches (σ : Equiv.Perm NodeId) (t t' : Table) : Prop where
  size : t'.size = t.size
  entry : ∀ i, t'.entries[σ i]? = t.entries[i]?

/-- With distinct names, the first class of a name is the only one. -/
theorem NamesDistinct.firstNamed_iff (h : t.NamesDistinct) :
    t.FirstNamed name i ↔ t.Named name i := by
  refine ⟨And.left, fun hi => ⟨hi, fun j hlt hj => ?_⟩⟩
  rw [h name j i hj hi] at hlt
  exact lt_irrefl i hlt

/-- With distinct names, the container target is the other class of the name. -/
theorem NamesDistinct.containerTarget_iff (h : t.NamesDistinct) {c : NodeId} :
    t.ContainerTarget i c ↔
      ∃ d name, t.entries[i]? = some d ∧ d.container = some name ∧ c ≠ i ∧ t.Named name c := by
  constructor
  · rintro ⟨d, name, hd, hname, hne, hc, _⟩
    exact ⟨d, name, hd, hname, hne, hc⟩
  · rintro ⟨d, name, hd, hname, hne, hc⟩
    exact ⟨d, name, hd, hname, hne, hc, fun j hlt _ => (h.firstNamed_iff.2 hc).2 j hlt⟩

namespace Matches

theorem named_iff (h : Matches σ t t') : t'.Named name (σ i) ↔ t.Named name i := by
  unfold Named
  rw [h.entry i]

theorem qualified_iff (h : Matches σ t t') : t'.Qualified name (σ i) ↔ t.Qualified name i := by
  unfold Qualified
  rw [h.entry i]

theorem lt_size_iff (h : Matches σ t t') : σ i < t'.size ↔ i < t.size := by
  have hle : t'.entries.size ≤ σ i ↔ t.entries.size ≤ i := by
    rw [← Array.getElem?_eq_none_iff, h.entry i, Array.getElem?_eq_none_iff]
  exact not_le.symm.trans ((not_congr hle).trans not_le)

theorem namesDistinct (h : Matches σ t t') (ht : t.NamesDistinct) : t'.NamesDistinct := by
  intro name i j hi hj
  obtain ⟨i, rfl⟩ := σ.surjective i
  obtain ⟨j, rfl⟩ := σ.surjective j
  rw [ht name i j (h.named_iff.1 hi) (h.named_iff.1 hj)]

/-! ### Targets -/

theorem containerTarget_iff (h : Matches σ t t') (ht : t.NamesDistinct) {c : NodeId} :
    t'.ContainerTarget (σ i) (σ c) ↔ t.ContainerTarget i c := by
  rw [(h.namesDistinct ht).containerTarget_iff, ht.containerTarget_iff, h.entry i]
  simp only [ne_eq, σ.apply_eq_iff_eq, h.named_iff]

theorem forall_not_qualified_iff (h : Matches σ t t') :
    (∀ j, ¬ t'.Qualified name j) ↔ ∀ j, ¬ t.Qualified name j := by
  rw [← σ.forall_congr_right]
  exact forall_congr' fun j => not_congr h.qualified_iff

theorem refers_iff (h : Matches σ t t') (ht : t.NamesDistinct) {scope : Option String}
    {base : String} {b : NodeId} : t'.Refers scope base (σ b) ↔ t.Refers scope base b := by
  unfold Refers
  simp only [(h.namesDistinct ht).firstNamed_iff, ht.firstNamed_iff, h.qualified_iff,
    h.forall_not_qualified_iff, h.named_iff]

theorem baseTarget_iff (h : Matches σ t t') (ht : t.NamesDistinct) {b : NodeId} :
    t'.BaseTarget (σ i) (σ b) ↔ t.BaseTarget i b := by
  have hnone : (∀ c, ¬ t'.ContainerTarget (σ i) c) ↔ ∀ c, ¬ t.ContainerTarget i c := by
    rw [← σ.forall_congr_right]
    exact forall_congr' fun c => not_congr (h.containerTarget_iff ht)
  unfold BaseTarget
  rw [hnone, h.entry i]
  simp only [h.refers_iff ht]

theorem containerOf (h : Matches σ t t') (ht : t.NamesDistinct) (i : NodeId) :
    t'.containerOf (σ i) = (t.containerOf i).map σ := by
  refine map_eq_of_iff (fun i c => ?_) i
  rw [containerOf_eq_some_iff, containerOf_eq_some_iff, h.containerTarget_iff ht]

theorem heir? (h : Matches σ t t') (ht : t.NamesDistinct) (hq : t.Distinct) (hq' : t'.Distinct)
    (i : NodeId) : t'.heir? (σ i) = (t.heir? i).map σ := by
  refine map_eq_of_iff (fun i b => ?_) i
  rw [heir?_eq_some_iff hq, heir?_eq_some_iff hq', h.baseTarget_iff ht]

theorem target? (h : Matches σ t t') (ht : t.NamesDistinct) (hq : t.Distinct)
    (hq' : t'.Distinct) (i : NodeId) : t'.target? (σ i) = (t.target? i).map σ := by
  rw [target?_eq_or_heir?, target?_eq_or_heir?, h.containerOf ht, h.heir? ht hq hq']
  cases t.containerOf i <;> rfl

/-- Chains of targets end in both tables alike. -/
theorem ends_target? (h : Matches σ t t') (ht : t.NamesDistinct) (hq : t.Distinct)
    (hq' : t'.Distinct) (hends : ∀ i, Ends t.target? i) (i : NodeId) : Ends t'.target? i := by
  obtain ⟨i, rfl⟩ := σ.surjective i
  obtain ⟨n, hn⟩ := hends i
  exact ⟨n, hn.map (h.target? ht hq hq')⟩

end Matches

/-! ### Tables of permuted lists -/

/-- A permutation of the places after the first one. -/
def shift (σ : Equiv.Perm NodeId) : Equiv.Perm NodeId where
  toFun
    | 0 => 0
    | i + 1 => σ i + 1
  invFun
    | 0 => 0
    | i + 1 => σ.symm i + 1
  left_inv := by
    rintro (_ | i)
    · rfl
    · simp
  right_inv := by
    rintro (_ | i)
    · rfl
    · simp

/-- Permuted lists have the same items at permuted places. -/
theorem exists_getElem?_eq_of_perm {ds ds' : List Declaration} (h : ds.Perm ds') :
    ∃ σ : Equiv.Perm NodeId, ∀ i, ds'[σ i]? = ds[i]? := by
  induction h with
  | nil => exact ⟨Equiv.refl _, fun i => rfl⟩
  | cons d _ ih =>
    obtain ⟨σ, hσ⟩ := ih
    refine ⟨shift σ, fun i => ?_⟩
    cases i with
    | zero => rfl
    | succ i => exact hσ i
  | swap d e ds =>
    refine ⟨Equiv.swap 0 1, fun i => ?_⟩
    match i with
    | 0 => rfl
    | 1 => rfl
    | i + 2 =>
      rw [Equiv.swap_apply_of_ne_of_ne (by simp) (by simp)]
      rfl
  | trans _ _ ih ih' =>
    obtain ⟨σ, hσ⟩ := ih
    obtain ⟨τ, hτ⟩ := ih'
    exact ⟨σ.trans τ, fun i => (hτ (σ i)).trans (hσ i)⟩

/-- If their qualified names differ, permuted lists have matching tables. -/
theorem exists_matches {ds ds' : List Declaration} (h : ds.Perm ds')
    (hq : (ds.map Declaration.qualifiedName).Nodup) :
    ∃ σ, Matches σ (ofList ds) (ofList ds') := by
  obtain ⟨σ, hσ⟩ := exists_getElem?_eq_of_perm h
  have hentries := entries_ofList_of_nodup hq
  have hentries' := entries_ofList_of_nodup ((h.map Declaration.qualifiedName).nodup_iff.1 hq)
  refine ⟨σ, ?_, fun i => ?_⟩
  · unfold size
    rw [hentries, hentries', List.size_toArray, List.size_toArray, h.length_eq]
  · rw [hentries, hentries', List.getElem?_toArray, List.getElem?_toArray, hσ i]

/-- If all simple names differ in the list, they do in its table. -/
theorem namesDistinct_ofList {ds : List Declaration}
    (hq : (ds.map Declaration.qualifiedName).Nodup) (hn : (ds.map Declaration.name).Nodup) :
    (ofList ds).NamesDistinct := by
  rintro name i j ⟨d, hd, hname⟩ ⟨e, he, hname'⟩
  rw [entries_ofList_of_nodup hq, List.getElem?_toArray] at hd he
  obtain ⟨hi, _⟩ := List.getElem?_eq_some_iff.1 hd
  refine (List.getElem?_inj (by rw [List.length_map]; exact hi) hn).1 ?_
  rw [List.getElem?_map, List.getElem?_map, hd, he, Option.map_some, Option.map_some, hname,
    hname']

end Lineage.Table

namespace Lineage.Forest

open Chain

variable {t t' : Table} {σ : Equiv.Perm NodeId} {ds ds' : List Declaration} {i : NodeId}

/-! ### Sorted lists -/

theorem nameAt_of_matches (h : Table.Matches σ t t') (i : NodeId) :
    nameAt t' (σ i) = nameAt t i := by
  unfold nameAt
  rw [h.entry i]

/-- With distinct names, classes of the table with one name are one class. -/
theorem eq_of_nameAt_eq (ht : t.NamesDistinct) {i j : NodeId} (hi : i < t.size) (hj : j < t.size)
    (hij : nameAt t i = nameAt t j) : i = j := by
  have hnamed : ∀ {i}, i < t.size → t.Named (nameAt t i) i := by
    intro i hi
    have hentry : t.entries[i]? = some (t.entries[i]) := Array.getElem?_eq_getElem hi
    refine ⟨_, hentry, ?_⟩
    unfold nameAt
    rw [hentry]
    rfl
  refine ht _ i j (hnamed hi) ?_
  rw [hij]
  exact hnamed hj

/-- With distinct names there is only one sorted list of given classes. -/
theorem sortByName_of_matches (h : Table.Matches σ t t') (ht : t.NamesDistinct)
    {ids ids' : List NodeId} (hids : ∀ i ∈ ids, i < t.size) (hperm : ids'.Perm (ids.map σ)) :
    sortByName t' ids' = (sortByName t ids).map σ := by
  have hsorted : ((sortByName t ids).map σ).Pairwise fun i j => nameAt t' i ≤ nameAt t' j := by
    rw [List.pairwise_map]
    simp only [nameAt_of_matches h]
    exact sorted_sortByName t ids
  have hperm' : (sortByName t' ids').Perm ((sortByName t ids).map σ) :=
    (sortByName_perm t' ids').trans (hperm.trans ((sortByName_perm t ids).map σ).symm)
  have hmem : ∀ i ∈ (sortByName t ids).map σ, i < t'.size := by
    intro i hi
    obtain ⟨j, hj, rfl⟩ := List.mem_map.1 hi
    rw [h.lt_size_iff]
    exact hids j (mem_sortByName.1 hj)
  -- two classes of the table that may stand in either order have one name, so they are one
  refine hperm'.eq_of_pairwise (fun i j hi hj hij hji => ?_) (sorted_sortByName t' ids') hsorted
  exact eq_of_nameAt_eq (h.namesDistinct ht) (hmem i (hperm'.mem_iff.1 hi)) (hmem j hj)
    (String.le_antisymm hij hji)

/-- The classes below a class are moved along with it. -/
theorem hangingBelow_perm (h : Table.Matches σ t t') {above above' : NodeId → Option NodeId}
    (habove : ∀ i, above' (σ i) = (above i).map σ) (i : NodeId) :
    (hangingBelow t'.size above' (σ i)).Perm ((hangingBelow t.size above i).map σ) := by
  refine (List.perm_ext_iff_of_nodup (nodup_hangingBelow _ _ _)
    ((nodup_hangingBelow _ _ _).map σ.injective)).2 fun j => ?_
  obtain ⟨j, rfl⟩ := σ.surjective j
  rw [List.mem_map_of_injective σ.injective, mem_hangingBelow, mem_hangingBelow,
    h.lt_size_iff, habove, Option.map_eq_some_iff]
  simp only [σ.apply_eq_iff_eq, exists_eq_right]

theorem sortByName_hangingBelow (h : Table.Matches σ t t') (ht : t.NamesDistinct)
    {above above' : NodeId → Option NodeId} (habove : ∀ i, above' (σ i) = (above i).map σ)
    (i : NodeId) :
    sortByName t' (hangingBelow t'.size above' (σ i)) =
      (sortByName t (hangingBelow t.size above i)).map σ :=
  sortByName_of_matches h ht (fun _ hj => (mem_hangingBelow.1 hj).1) (hangingBelow_perm h habove i)

/-! ### Forests of matching tables -/

section Matching

variable (h : Table.Matches σ (Table.ofList ds) (Table.ofList ds'))
  (ht : (Table.ofList ds).NamesDistinct) (hends : ∀ i, Ends (Table.ofList ds).target? i)

include h ht hends

/-- Chains of targets end in the second table too. -/
theorem ends_target?_of_matches (i : NodeId) : Ends (Table.ofList ds').target? i :=
  h.ends_target? ht (Table.distinct_ofList ds) (Table.distinct_ofList ds') hends i

theorem parent?_of_matches (i : NodeId) :
    (build ds').parent? (σ i) = ((build ds).parent? i).map σ := by
  rw [parent?_build, parent?_build, Links.parent?_resolve_of_ends hends,
    Links.parent?_resolve_of_ends (ends_target?_of_matches h ht hends)]
  exact h.heir? ht (Table.distinct_ofList ds) (Table.distinct_ofList ds') i

theorem container?_of_matches (i : NodeId) :
    (build ds').container? (σ i) = ((build ds).container? i).map σ := by
  rw [container?_build, container?_build, Links.container?_resolve_of_ends hends,
    Links.container?_resolve_of_ends (ends_target?_of_matches h ht hends)]
  exact h.containerOf ht i

theorem mem_roots_of_matches : σ i ∈ (build ds').roots ↔ i ∈ (build ds).roots := by
  rw [mem_roots_build, mem_roots_build, size_build, size_build, h.lt_size_iff]
  unfold above?
  rw [parent?_of_matches h ht hends, container?_of_matches h ht hends]
  simp only [Option.or_eq_none_iff, Option.map_eq_none_iff]

/-- The roots are moved along. -/
theorem roots_of_matches : (build ds').roots = (build ds).roots.map σ := by
  have hperm : (build ds').roots.Perm ((build ds).roots.map σ) := by
    refine (List.perm_ext_iff_of_nodup (nodup_roots_build ds')
      ((nodup_roots_build ds).map σ.injective)).2 fun i => ?_
    obtain ⟨i, rfl⟩ := σ.surjective i
    rw [List.mem_map_of_injective σ.injective, mem_roots_of_matches h ht hends]
  -- the lists that were sorted into the roots have the same classes as the roots
  refine sortByName_of_matches h ht (fun i hi => ?_) ?_
  · rw [← size_build]
    exact (mem_roots_build.1 ((roots_build_perm ds).mem_iff.2 hi)).1
  · exact (roots_build_perm ds').symm.trans (hperm.trans ((roots_build_perm ds).map σ))

/-- Every class is moved along with its depth and the classes around it. -/
theorem node?_of_matches (i : NodeId) :
    (build ds').node? (σ i) = ((build ds).node? i).map (Node.rename σ) := by
  by_cases hi : i < (Table.ofList ds).size
  · have hnode := node?_build hi
    have hnode' := node?_build (h.lt_size_iff.2 hi)
    -- depths count the steps of the two chains of parents, which correspond
    have hdepth := (height_depth_build hnode').unique
      ((height_depth_build hnode).map (parent?_of_matches h ht hends))
    have hparent := parent?_of_matches h ht hends
    have hcontainer := container?_of_matches h ht hends
    simp only [parent?_build] at hparent
    simp only [container?_build] at hcontainer
    dsimp only at hdepth
    rw [hnode, hnode', Option.map_some, Node.rename, hdepth, h.entry i, hparent i, hcontainer i,
      sortByName_hangingBelow h ht hparent i, sortByName_hangingBelow h ht hcontainer i]
  · rw [node?_build_eq_none hi, node?_build_eq_none (mt h.lt_size_iff.1 hi)]
    rfl

/-- The two forests differ in the numbers of their classes only. -/
theorem renames_build : Renames σ (build ds) (build ds') where
  injective := σ.injective
  size := by rw [size_build, size_build, h.size]
  roots := roots_of_matches h ht hends
  node := node?_of_matches h ht hends

end Matching

/-- **The report does not depend on the order of the declarations**, if no two have the same
qualified name or the same simple name and no chain of targets loops: the outline, the summary and
the whole text are the same. -/
theorem report_build_perm (ds ds' : List Declaration) (hperm : ds.Perm ds')
    (hq : (ds.map Declaration.qualifiedName).Nodup) (hn : (ds.map Declaration.name).Nodup)
    (hloop : ∀ i, ¬ (Table.ofList ds).InLoop i) :
    (Outline.lines (build ds')).map (·.plain) = (Outline.lines (build ds)).map (·.plain) ∧
    (Census.ofForest (build ds')).summary (build ds') =
      (Census.ofForest (build ds)).summary (build ds) ∧
    Census.report (build ds') (Outline.lines (build ds')) (Census.ofForest (build ds')) =
      Census.report (build ds) (Outline.lines (build ds)) (Census.ofForest (build ds)) := by
  obtain ⟨σ, hmatches⟩ := Table.exists_matches hperm hq
  have hends : ∀ i, Ends (Table.ofList ds).target? i := fun i =>
    (Table.within_target? _).ends_of_no_loop fun j hj =>
      hloop j ((Table.onLoop_target?_iff (Table.distinct_ofList ds)).1 hj)
  have hrenames := renames_build hmatches (Table.namesDistinct_ofList hq hn) hends
  refine ⟨hrenames.plain_lines, ?_, hrenames.report⟩
  rw [hrenames.ofForest, hrenames.summary]

/-- A class between one that derives from it and one that it contains. -/
def onBothSides : List Declaration :=
  [{ name := "Z", scope := some "app", base := some "Mid", lines := 7, file := "Z.cs" },
   { name := "Mid", scope := some "app", isAbstract := true, file := "Mid.cs" },
   { name := "A", container := some "Mid", lines := 7, file := "A.cs" }]

/-- Read backwards, the list has the same outline and the same one of two large classes stands in
the summary. -/
theorem report_build_perm_onBothSides :
    onBothSides.Perm onBothSides.reverse ∧
      (onBothSides.map Declaration.qualifiedName).Nodup ∧ (onBothSides.map Declaration.name).Nodup ∧
      (∀ i, ¬ (Table.ofList onBothSides).InLoop i) ∧
      (Outline.lines (build onBothSides.reverse)).map (·.plain) =
        ["Mid [abstract]", "├── Z", "└── A (nested)"] ∧
      (Census.ofForest (build onBothSides.reverse)).summary (build onBothSides.reverse) =
        ["Classes: 3 (1 nested)", "Normal: 2  Abstract: 1  Sealed: 0  Static: 0",
         "Max inheritance depth: 1", "Largest: app.Z (7 lines)", "Deepest chains:",
         "  app.Mid -> app.Z"] := by
  have hperm : onBothSides.Perm onBothSides.reverse := (List.reverse_perm onBothSides).symm
  have hq : (onBothSides.map Declaration.qualifiedName).Nodup := by decide +kernel
  have hn : (onBothSides.map Declaration.name).Nodup := by decide +kernel
  have hloop : ∀ i, ¬ (Table.ofList onBothSides).InLoop i := by
    intro i hi
    have hall : ((List.range (Table.ofList onBothSides).size).all fun i =>
        Links.ends (Table.ofList onBothSides).target? (Table.ofList onBothSides).size i) = true := by
      decide +kernel
    have hon := (Table.onLoop_target?_iff (Table.distinct_ofList onBothSides)).2 hi
    obtain ⟨j, hij⟩ := hon.exists_step
    have hlt := (Table.within_target? _ i j hij).1
    have hends := List.all_eq_true.1 hall i (List.mem_range.2 hlt)
    exact (((Table.within_target? _).ends_iff hlt).1 hends).not_onLoop hon
  obtain ⟨hlines, hsummary, _⟩ := report_build_perm _ _ hperm hq hn hloop
  refine ⟨hperm, hq, hn, hloop, hlines.trans ?_, hsummary.trans ?_⟩
  · simp only [build, assemble, sortByName_eq_insertionSort]
    decide +kernel
  · simp only [build, assemble, sortByName_eq_insertionSort]
    decide +kernel

end Lineage.Forest
