import Lineage.Proofs.Targets
import Mathlib.Data.Finset.Card
import Mathlib.Data.Finset.Image
import Mathlib.Tactic.IntervalCases

/-!
# How loops of targets are broken

Which classes with a target are made roots.  Of every loop of targets it is exactly one class:
the last one in the order of the table if all links of the loop are links of inheritance, and the
first one if the loop has a container in it (`Breaks`).  But where a loop with a container is
broken, classes that only hang below the loop can lose their link too: those that stand in the
table before all classes above them (`Stray`).  All other classes keep their links, and the roots
are counted accordingly (`roots_build`).
-/

namespace Lineage.Table

open Chain

variable {t : Table} {i j : NodeId}

/-- Class `i` is the class of its loop that is made a root. -/
def Breaks (t : Table) (i : NodeId) : Prop :=
  t.InLoop i ∧
    ((∀ j c, t.Reaches i j → ¬ t.ContainerTarget j c) ∧ (∀ j, t.Reaches i j → j ≤ i) ∨
      (∃ j c, t.Reaches i j ∧ t.ContainerTarget j c) ∧ (∀ j, t.Reaches i j → i ≤ j))

/-- Class `i` hangs below a loop that has a container in it, and stands in the table before all
classes above it. -/
def Stray (t : Table) (i : NodeId) : Prop :=
  ¬ t.InLoop i ∧
    (∃ j c, t.Reaches i j ∧ t.InLoop j ∧ t.ContainerTarget j c) ∧
    ∀ j, t.Reaches i j → i ≤ j

open Classical in
/-- The classes without a target. -/
noncomputable def tops (t : Table) : Finset NodeId :=
  (Finset.range t.size).filter fun i => ∀ j, ¬ t.Target i j

open Classical in
/-- The loops of targets, each as the set of its classes. -/
noncomputable def loops (t : Table) : Finset (Finset NodeId) :=
  ((Finset.range t.size).filter t.InLoop).image fun i =>
    (Finset.range t.size).filter (t.Reaches i)

open Classical in
/-- The classes that lose their link below a loop. -/
noncomputable def strays (t : Table) : Finset NodeId :=
  (Finset.range t.size).filter t.Stray

end Lineage.Table

namespace Lineage.Chain

variable {step : NodeId → Option NodeId} {i j k : NodeId}

/-- A chain that comes to a loop comes to it from each of its classes. -/
theorem OnLoop.leads_of_leads (hj : OnLoop step j) (hij : Leads step i j) (hik : Leads step i k) :
    Leads step k j := by
  rcases Leads.total hij hik with hjk | hkj
  · exact hj.leads_back hjk
  · exact hkj

end Lineage.Chain

namespace Lineage.Links

open Chain

variable {t : Table} {i j : NodeId}

/-! ### Unlinked classes by their targets -/

/-- The class refused is the last one of a loop of targets without a container. -/
theorem refused_iff :
    Refused t i ↔ OnLoop t.target? i ∧ (∀ j, Leads t.target? i j → t.containerOf j = none) ∧
      ∀ j, Leads t.target? i j → j ≤ i := by
  have hnarrow := Table.narrows_heir? t
  constructor
  · rintro ⟨hloop, hmax⟩
    have hheir : ∀ j, Leads t.target? i j → Leads t.heir? i j := fun j hij =>
      hnarrow.leads_of_onLoop hloop hij
    refine ⟨hnarrow.onLoop hloop, fun j hij => ?_, fun j hij => hmax j (hheir j hij)⟩
    obtain ⟨k, hk⟩ := (hloop.of_leads (hheir j hij)).exists_step
    cases hc : t.containerOf j with
    | none => rfl
    | some c =>
      rw [Table.heir?_of_containerOf hc] at hk
      cases hk
  · rintro ⟨hloop, hpure, hmax⟩
    have hagree : ∀ j, Leads t.target? i j → t.heir? j = t.target? j := by
      intro j hij
      rw [Table.target?_eq_or_heir?, hpure j hij]
      rfl
    obtain ⟨k, hik⟩ := hloop.exists_step
    have hback : Leads t.heir? k i :=
      (hloop.leads_back (.single hik)).of_agree fun j hkj _ _ => hagree j (.head hik hkj)
    refine ⟨.of_step_of_leads ((hagree i .refl).trans hik) hback, fun j hij => ?_⟩
    exact hmax j (hnarrow.leads hij)

/-- A class from which the targets lead to a container is not refused. -/
theorem not_refused_of_leads (hij : Leads t.target? i j) (hj : t.containerOf j ≠ none) :
    ¬ Refused t i :=
  fun h => hj ((refused_iff.1 h).2.1 j hij)

/-- Such a class hangs below its target after the first pass. -/
theorem above?_inheritance_of_leads (hij : Leads t.target? i j) (hj : t.containerOf j ≠ none) :
    (inheritance t).above? i = t.target? i := by
  refine Option.ext fun k => ?_
  rw [above?_inheritance_eq_some_iff]
  exact and_iff_right (not_refused_of_leads hij hj)

/-- After the first pass exactly the chains that come to a loop with a container do not end. -/
theorem not_ends_inheritance_iff :
    ¬ Ends (inheritance t).above? i ↔
      ∃ j, Leads t.target? i j ∧ OnLoop t.target? j ∧ t.containerOf j ≠ none := by
  have hnarrow := narrows_above?_inheritance t
  constructor
  · intro hi
    obtain ⟨j, hij, hloop⟩ := (within_above?_inheritance t).exists_onLoop hi
    by_contra hpure
    have hnone : ∀ k, Leads t.target? j k → t.containerOf k = none := by
      intro k hjk
      by_contra hk
      exact hpure ⟨k, (hnarrow.leads hij).trans hjk, (hnarrow.onLoop hloop).of_leads hjk, hk⟩
    -- the last class of the loop has been refused, so the loop is no longer there
    obtain ⟨m, hjm, hmax⟩ := (within_above?_inheritance t).exists_greatest hloop
    have hm : OnLoop (inheritance t).above? m := hloop.of_leads hjm
    obtain ⟨k, hmk⟩ := hm.exists_step
    refine (above?_inheritance_eq_some_iff.1 hmk).1 (refused_iff.2 ⟨hnarrow.onLoop hm, ?_, ?_⟩)
    · exact fun k hmk => hnone k ((hnarrow.leads hjm).trans hmk)
    · exact fun k hmk => hmax k (hjm.trans (hnarrow.leads_of_onLoop hm hmk))
  · rintro ⟨j, hij, hloop, hj⟩ hi
    -- no class that leads to a container is refused, so the whole chain to `j` is linked
    have hchain : ∀ k, Leads t.target? k j → Leads (inheritance t).above? k j := fun k hkj =>
      hkj.of_agree fun a _ haj _ => above?_inheritance_of_leads haj hj
    obtain ⟨k, hjk⟩ := hloop.exists_step
    have hstep : (inheritance t).above? j = some k :=
      (above?_inheritance_of_leads .refl hj).trans hjk
    have hloop' : OnLoop (inheritance t).above? j :=
      .of_step_of_leads hstep (hchain k (hloop.leads_back (.single hjk)))
    exact (hi.leads (hchain i hij)).not_onLoop hloop'

/-- The classes cut loose are those below, or on, a loop with a container that stand before all
classes above them. -/
theorem cut_iff :
    Cut (inheritance t).above? i ↔
      (∃ j, Leads t.target? i j ∧ OnLoop t.target? j ∧ t.containerOf j ≠ none) ∧
        ∀ j, Leads t.target? i j → i ≤ j := by
  unfold Cut
  rw [not_ends_inheritance_iff]
  refine and_congr_right fun ⟨k, hik, hloop, hk⟩ => forall_congr' fun j => ?_
  refine imp_congr_left ⟨(narrows_above?_inheritance t).leads, fun hij => ?_⟩
  refine hij.of_agree fun a hia _ _ => ?_
  exact above?_inheritance_of_leads (hloop.leads_of_leads hik hia) hk

end Lineage.Links

namespace Lineage.Table

open Chain

variable {t : Table} {i j : NodeId}

/-! ### Loops of targets -/

theorem containerOf_ne_none_iff : t.containerOf i ≠ none ↔ ∃ c, t.ContainerTarget i c := by
  rw [Ne, containerOf_eq_none_iff]
  exact not_forall_not

/-- The class that is made a root, by the look-ups. -/
theorem breaks_iff (ht : t.Distinct) :
    t.Breaks i ↔ OnLoop t.target? i ∧
      ((∀ j, Leads t.target? i j → t.containerOf j = none) ∧
          (∀ j, Leads t.target? i j → j ≤ i) ∨
        (∃ j, Leads t.target? i j ∧ t.containerOf j ≠ none) ∧
          (∀ j, Leads t.target? i j → i ≤ j)) := by
  unfold Breaks
  simp only [leads_target?_iff ht, onLoop_target?_iff ht, containerOf_eq_none_iff,
    containerOf_ne_none_iff, exists_and_left]
  have hall : ∀ j, (∀ c, t.Reaches i j → ¬ t.ContainerTarget j c) ↔
      (t.Reaches i j → ∀ c, ¬ t.ContainerTarget j c) := fun j => forall_comm
  simp only [hall]

/-- The classes that lose their link below a loop, by the look-ups. -/
theorem stray_iff (ht : t.Distinct) :
    t.Stray i ↔ ¬ OnLoop t.target? i ∧
      (∃ j, Leads t.target? i j ∧ OnLoop t.target? j ∧ t.containerOf j ≠ none) ∧
      ∀ j, Leads t.target? i j → i ≤ j := by
  unfold Stray
  simp only [leads_target?_iff ht, onLoop_target?_iff ht, containerOf_ne_none_iff,
    exists_and_left]

/-- Every loop has exactly one class that is made a root. -/
theorem existsUnique_breaks (ht : t.Distinct) (hi : OnLoop t.target? i) :
    ∃! r, Leads t.target? i r ∧ t.Breaks r := by
  simp only [breaks_iff ht]
  by_cases hpure : ∀ j, Leads t.target? i j → t.containerOf j = none
  · -- a loop of inheritance alone is broken at its last class
    obtain ⟨m, him, hmax⟩ := (within_target? t).exists_greatest hi
    refine ⟨m, ⟨him, hi.of_leads him, Or.inl ⟨?_, ?_⟩⟩, ?_⟩
    · exact fun j hmj => hpure j (him.trans hmj)
    · exact fun j hmj => hmax j (him.trans hmj)
    · rintro r ⟨hir, hloop, ⟨_, hr⟩ | ⟨⟨j, hrj, hj⟩, _⟩⟩
      · exact le_antisymm (hmax r hir) (hr m (hi.leads_of_leads .refl hir |>.trans him))
      · exact absurd (hpure j (hir.trans hrj)) hj
  · obtain ⟨k, hik, hk⟩ : ∃ k, Leads t.target? i k ∧ t.containerOf k ≠ none := by
      by_contra hnone
      exact hpure fun j hij => not_not.1 fun hj => hnone ⟨j, hij, hj⟩
    -- a loop with a container is broken at its first class
    obtain ⟨m, him, hmin⟩ := exists_least t.target? i
    have hback : ∀ {r}, Leads t.target? i r → Leads t.target? r i := fun hir => hi.leads_back hir
    refine ⟨m, ⟨him, hi.of_leads him, Or.inr ⟨⟨k, (hback him).trans hik, hk⟩, ?_⟩⟩, ?_⟩
    · exact fun j hmj => hmin j (him.trans hmj)
    · rintro r ⟨hir, hloop, ⟨hr, _⟩ | ⟨_, hr⟩⟩
      · exact absurd (hr k ((hback hir).trans hik)) hk
      · exact le_antisymm (hr m ((hback hir).trans him)) (hmin r hir)

/-- A class on a loop is a class of the table. -/
theorem InLoop.lt_size (ht : t.Distinct) (hi : t.InLoop i) : i < t.size := by
  obtain ⟨j, hj⟩ := ((onLoop_target?_iff ht).2 hi).exists_step
  exact (within_target? t i j hj).1

/-- There are as many loops as classes of loops that are made roots. -/
theorem card_loops (ht : t.Distinct) [DecidablePred t.Breaks] :
    t.loops.card = ((Finset.range t.size).filter t.Breaks).card := by
  classical
  have hunique := fun {i} (hi : t.InLoop i) =>
    existsUnique_breaks ht ((onLoop_target?_iff ht).2 hi)
  simp only [leads_target?_iff ht] at hunique
  -- every loop is the loop of a class that breaks it, and of one such class only
  have himage : t.loops = ((Finset.range t.size).filter t.Breaks).image fun i =>
      (Finset.range t.size).filter (t.Reaches i) := by
    unfold loops
    refine Finset.Subset.antisymm (fun loop hloop => ?_) (Finset.image_subset_image ?_)
    · obtain ⟨i, hi, rfl⟩ := Finset.mem_image.1 hloop
      have hi := (Finset.mem_filter.1 hi).2
      obtain ⟨r, ⟨hir, hr⟩, _⟩ := hunique hi
      have hri : t.Reaches r i := (leads_target?_iff ht).1
        (((onLoop_target?_iff ht).2 hi).leads_back ((leads_target?_iff ht).2 hir))
      refine Finset.mem_image.2 ⟨r, ?_, ?_⟩
      · exact Finset.mem_filter.2 ⟨Finset.mem_range.2 (InLoop.lt_size ht hr.1), hr⟩
      · exact Finset.filter_congr fun j _ => ⟨hir.trans, hri.trans⟩
    · exact fun i hi => Finset.mem_filter.2 ⟨(Finset.mem_filter.1 hi).1, (Finset.mem_filter.1 hi).2.1⟩
  rw [himage, Finset.card_image_of_injOn]
  intro r hr r' hr' heq
  have hr := (Finset.mem_filter.1 hr).2
  have hr' := Finset.mem_filter.1 hr'
  have hmem : r' ∈ (Finset.range t.size).filter (t.Reaches r) := by
    show r' ∈ (fun i => (Finset.range t.size).filter (t.Reaches i)) r
    rw [heq]
    exact Finset.mem_filter.2 ⟨hr'.1, .refl⟩
  exact (hunique hr.1).unique ⟨.refl, hr⟩ ⟨(Finset.mem_filter.1 hmem).2, hr'.2⟩

end Lineage.Table

namespace Lineage.Links

open Chain

variable {t : Table} {i j : NodeId}

/-- Which classes with a target are not linked to it. -/
theorem loose_iff (ht : t.Distinct) : Loose t i ↔ t.Breaks i ∨ t.Stray i := by
  unfold Loose
  rw [refused_iff, cut_iff, Table.breaks_iff ht, Table.stray_iff ht]
  constructor
  · rintro (⟨hloop, hpure, hmax⟩ | ⟨⟨j, hij, hloop, hj⟩, hmin⟩)
    · exact Or.inl ⟨hloop, Or.inl ⟨hpure, hmax⟩⟩
    · by_cases hi : OnLoop t.target? i
      · exact Or.inl ⟨hi, Or.inr ⟨⟨j, hij, hj⟩, hmin⟩⟩
      · exact Or.inr ⟨hi, ⟨j, hij, hloop, hj⟩, hmin⟩
  · rintro (⟨hloop, ⟨hpure, hmax⟩ | ⟨⟨j, hij, hj⟩, hmin⟩⟩ | ⟨_, hbelow, hmin⟩)
    · exact Or.inl ⟨hloop, hpure, hmax⟩
    · exact Or.inr ⟨⟨j, hij, hloop.of_leads hij, hj⟩, hmin⟩
    · exact Or.inr ⟨hbelow, hmin⟩

end Lineage.Links

namespace Lineage.Forest

open Chain

variable {ds : List Declaration} {i : NodeId}

/-! ### The roots of a built forest -/

/-- A class that breaks no loop and is no stray hangs below its target. -/
theorem linked_build (hbreaks : ¬ (Table.ofList ds).Breaks i)
    (hstray : ¬ (Table.ofList ds).Stray i) :
    (∀ c, (Table.ofList ds).ContainerTarget i c → (build ds).container? i = some c) ∧
      ∀ b, (Table.ofList ds).BaseTarget i b → (build ds).parent? i = some b := by
  have hkept : ¬ Links.Loose (Table.ofList ds) i := by
    rw [Links.loose_iff (Table.distinct_ofList ds)]
    exact not_or.2 ⟨hbreaks, hstray⟩
  exact ⟨fun c hc => container?_build_eq_some_iff.2 ⟨hkept, hc⟩,
    fun b hb => parent?_build_eq_some_iff.2 ⟨hkept, hb⟩⟩

/-- The roots by kind. -/
theorem mem_roots_build_iff_kind :
    i ∈ (build ds).roots ↔ i < (build ds).size ∧
      ((∀ j, ¬ (Table.ofList ds).Target i j) ∨
        (Table.ofList ds).Breaks i ∨ (Table.ofList ds).Stray i) := by
  rw [mem_roots_build_iff, Links.loose_iff (Table.distinct_ofList ds), or_comm]

/-- A class on a loop has a target. -/
theorem exists_target_of_inLoop {t : Table} (hi : t.InLoop i) : ∃ j, t.Target i j := by
  obtain ⟨j, hij, _⟩ := Relation.TransGen.head'_iff.1 hi
  exact ⟨j, hij⟩

/-- A stray has a target. -/
theorem exists_target_of_stray {t : Table} (hi : t.Stray i) : ∃ j, t.Target i j := by
  obtain ⟨hout, ⟨j, _, hij, hloop, _⟩, _⟩ := hi
  rcases Relation.ReflTransGen.cases_head hij with rfl | ⟨k, hik, _⟩
  · exact exists_target_of_inLoop hloop
  · exact ⟨k, hik⟩

/-- Each loop has exactly one root. -/
theorem existsUnique_root_of_inLoop (hi : (Table.ofList ds).InLoop i) :
    ∃! r, r ∈ (build ds).roots ∧ (Table.ofList ds).Reaches i r := by
  have ht := Table.distinct_ofList ds
  have hloop := (Table.onLoop_target?_iff ht).2 hi
  have hbreaks : ∀ r, (Table.ofList ds).Reaches i r →
      (r ∈ (build ds).roots ↔ (Table.ofList ds).Breaks r) := by
    intro r hir
    have hr : (Table.ofList ds).InLoop r :=
      (Table.onLoop_target?_iff ht).1 (hloop.of_leads ((Table.leads_target?_iff ht).2 hir))
    obtain ⟨j, hj⟩ := exists_target_of_inLoop hr
    rw [mem_roots_build_iff_kind, size_build, and_iff_right (Table.InLoop.lt_size ht hr)]
    constructor
    · rintro (htop | hr' | hstray)
      · exact absurd hj (htop j)
      · exact hr'
      · exact absurd hr hstray.1
    · exact fun hr' => Or.inr (Or.inl hr')
  obtain ⟨r, ⟨hir, hr⟩, hunique⟩ := Table.existsUnique_breaks ht hloop
  rw [Table.leads_target?_iff ht] at hir
  refine ⟨r, ⟨(hbreaks r hir).2 hr, hir⟩, fun r' hr' => hunique r' ⟨?_, ?_⟩⟩
  · exact (Table.leads_target?_iff ht).2 hr'.2
  · exact (hbreaks r' hr'.2).1 hr'.1

/-- There is a root for each class without a target, for each loop and for each stray. -/
theorem length_roots_build (ds : List Declaration) :
    (build ds).roots.length = (Table.ofList ds).tops.card + (Table.ofList ds).loops.card +
      (Table.ofList ds).strays.card := by
  classical
  have ht := Table.distinct_ofList ds
  set t := Table.ofList ds with ht_def
  set breakers := (Finset.range t.size).filter t.Breaks with hbreakers
  have hroots : (build ds).roots.toFinset = t.tops ∪ breakers ∪ t.strays := by
    ext i
    rw [List.mem_toFinset, mem_roots_build_iff_kind, size_build, ← ht_def, Finset.mem_union,
      Finset.mem_union, hbreakers, Table.tops, Table.strays]
    simp only [Finset.mem_filter, Finset.mem_range]
    tauto
  have htops : Disjoint t.tops breakers := by
    rw [Finset.disjoint_left, hbreakers, Table.tops]
    intro i hi hi'
    obtain ⟨j, hj⟩ := exists_target_of_inLoop (Finset.mem_filter.1 hi').2.1
    exact (Finset.mem_filter.1 hi).2 j hj
  have hstrays : Disjoint (t.tops ∪ breakers) t.strays := by
    rw [Finset.disjoint_right, hbreakers, Table.tops, Table.strays]
    intro i hi hi'
    have hstray := (Finset.mem_filter.1 hi).2
    rcases Finset.mem_union.1 hi' with htop | hbreak
    · obtain ⟨j, hj⟩ := exists_target_of_stray hstray
      exact (Finset.mem_filter.1 htop).2 j hj
    · exact hstray.1 (Finset.mem_filter.1 hbreak).2.1
  rw [← List.toFinset_card_of_nodup (nodup_roots_build ds), hroots,
    Finset.card_union_of_disjoint hstrays, Finset.card_union_of_disjoint htops,
    Table.card_loops ht]

/-- **What breaking loops costs.**  The roots are the classes without a target, one class of each
loop, and the strays; every other class keeps its link.  So the roots with a target all lie on
loops exactly if there are no strays. -/
theorem roots_build (ds : List Declaration) :
    (∀ i, i ∈ (build ds).roots ↔ i < (build ds).size ∧
      ((∀ j, ¬ (Table.ofList ds).Target i j) ∨
        (Table.ofList ds).Breaks i ∨ (Table.ofList ds).Stray i)) ∧
    (∀ i, (Table.ofList ds).InLoop i →
      ∃! r, r ∈ (build ds).roots ∧ (Table.ofList ds).Reaches i r) ∧
    (∀ i, ¬ (Table.ofList ds).Breaks i → ¬ (Table.ofList ds).Stray i →
      (∀ c, (Table.ofList ds).ContainerTarget i c → (build ds).container? i = some c) ∧
        ∀ b, (Table.ofList ds).BaseTarget i b → (build ds).parent? i = some b) ∧
    ((∀ i ∈ (build ds).roots, (∃ j, (Table.ofList ds).Target i j) → (Table.ofList ds).InLoop i) ↔
      ∀ i, ¬ (Table.ofList ds).Stray i) ∧
    (build ds).roots.length = (Table.ofList ds).tops.card + (Table.ofList ds).loops.card +
      (Table.ofList ds).strays.card := by
  refine ⟨fun i => mem_roots_build_iff_kind, fun i => existsUnique_root_of_inLoop,
    fun i => linked_build, ⟨fun h i hi => ?_, fun h i hi hj => ?_⟩, length_roots_build ds⟩
  · obtain ⟨j, hj⟩ := exists_target_of_stray hi
    have hsize : i < (build ds).size := by
      rw [size_build]
      rw [← Table.target?_eq_some_iff (Table.distinct_ofList ds)] at hj
      exact (Table.within_target? _ i j hj).1
    have hroot : i ∈ (build ds).roots :=
      mem_roots_build_iff_kind.2 ⟨hsize, Or.inr (Or.inr hi)⟩
    exact hi.1 (h i hroot (exists_target_of_stray hi))
  · obtain ⟨j, hj⟩ := hj
    rcases (mem_roots_build_iff_kind.1 hi).2 with htop | hbreaks | hstray
    · exact absurd hj (htop j)
    · exact hbreaks.1
    · exact absurd hstray (h i)

/-- A class derived from one of two classes that are inside each other, listed before them. -/
def tailFirst : List Declaration :=
  [{ name := "Tail", base := some "A", file := "Tail.cs" },
   { name := "A", container := some "B", file := "A.cs" },
   { name := "B", container := some "A", file := "B.cs" }]

private lemma target?_tailFirst :
    (Table.ofList tailFirst).target? 0 = some 1 ∧ (Table.ofList tailFirst).target? 1 = some 2 ∧
      (Table.ofList tailFirst).target? 2 = some 1 ∧
      (Table.ofList tailFirst).containerOf 1 = some 2 := by
  refine ⟨?_, ?_, ?_, ?_⟩ <;> decide +kernel

private lemma target?_tailFirst_ne_zero (i : NodeId) :
    (Table.ofList tailFirst).target? i ≠ some 0 := by
  intro hi
  obtain ⟨h0, h1, h2, _⟩ := target?_tailFirst
  have hsize : (Table.ofList tailFirst).size = 3 := by decide +kernel
  have hlt := (Table.within_target? _ i 0 hi).1
  rw [hsize] at hlt
  interval_cases i
  · rw [h0] at hi; cases hi
  · rw [h1] at hi; cases hi
  · rw [h2] at hi; cases hi

private lemma not_onLoop_tailFirst : ¬ OnLoop (Table.ofList tailFirst).target? 0 := by
  intro hloop
  obtain ⟨j, _, hj⟩ := Relation.TransGen.tail'_iff.1 hloop
  exact target?_tailFirst_ne_zero j hj

/-- The derived class is a root although it has a target and lies on no loop. -/
theorem tail_mem_roots_not_inLoop :
    0 ∈ (build tailFirst).roots ∧ (Table.ofList tailFirst).Target 0 1 ∧
      ¬ (Table.ofList tailFirst).InLoop 0 := by
  have ht := Table.distinct_ofList tailFirst
  have hroots : (build tailFirst).roots = [1, 0] := by
    simp only [build, assemble, sortByName_eq_insertionSort]
    decide +kernel
  refine ⟨by rw [hroots]; simp, (Table.target?_eq_some_iff ht).1 target?_tailFirst.1, ?_⟩
  exact fun hloop => not_onLoop_tailFirst ((Table.onLoop_target?_iff ht).2 hloop)

/-- The derived class is a stray, so not all roots with a target lie on loops. -/
theorem roots_build_tailFirst :
    (Table.ofList tailFirst).Stray 0 ∧
      ¬ ∀ i ∈ (build tailFirst).roots, (∃ j, (Table.ofList tailFirst).Target i j) →
        (Table.ofList tailFirst).InLoop i := by
  have ht := Table.distinct_ofList tailFirst
  obtain ⟨h0, h1, h2, hc⟩ := target?_tailFirst
  have hstray : (Table.ofList tailFirst).Stray 0 := by
    refine (Table.stray_iff ht).2 ⟨not_onLoop_tailFirst, ⟨1, .single h0, ?_, ?_⟩, ?_⟩
    · exact .of_step_of_leads h1 (.single h2)
    · rw [hc]; simp
    · exact fun j _ => Nat.zero_le j
  exact ⟨hstray, fun h => (roots_build tailFirst).2.2.2.1.1 h 0 hstray⟩

end Lineage.Forest
