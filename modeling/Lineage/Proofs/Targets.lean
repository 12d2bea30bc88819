import Lineage.Proofs.Forest

/-!
# Links and targets

The links of a built forest compared with the targets of its table.  A link never goes anywhere
but to the target of its class, and a class whose chain of targets ends has its link
(`links_build`): breaking loops takes nothing from classes that lie on no loop and below none.
-/

namespace Lineage.Table

open Chain

variable {t : Table} {i j : NodeId}

/-- The chain of targets from class `i` ends at a class without a target. -/
def Settles (t : Table) (i : NodeId) : Prop :=
  ∃ j, t.Reaches i j ∧ ∀ k, ¬ t.Target j k

/-- A class without a target, by the look-ups. -/
theorem target?_eq_none_iff (ht : t.Distinct) : t.target? i = none ↔ ∀ j, ¬ t.Target i j := by
  rw [Option.eq_none_iff_forall_ne_some]
  exact forall_congr' fun j => not_congr (target?_eq_some_iff ht)

/-- The chain of targets ends if that of the look-ups does. -/
theorem settles_iff (ht : t.Distinct) : t.Settles i ↔ Ends t.target? i := by
  constructor
  · rintro ⟨j, hij, htop⟩
    have hj : Ends t.target? j := .of_none ((target?_eq_none_iff ht).2 htop)
    exact hj.of_leads ((leads_target?_iff ht).2 hij)
  · intro hi
    obtain ⟨j, hij, htop⟩ := hi.exists_top
    exact ⟨j, (leads_target?_iff ht).1 hij, (target?_eq_none_iff ht).1 htop⟩

end Lineage.Table

namespace Lineage.Links

open Chain

variable {t : Table} {i : NodeId}

theorem narrows_above?_inheritance (t : Table) : Narrows (inheritance t).above? t.target? :=
  fun _ _ hij => (above?_inheritance_eq_some_iff.1 hij).2

/-- A class whose chain of targets ends keeps its link. -/
theorem not_loose_of_ends (hi : Ends t.target? i) : ¬ Loose t i := by
  rintro (href | hcut)
  · exact hi.not_onLoop ((Table.narrows_heir? t).onLoop href.1)
  · exact hcut.1 ((narrows_above?_inheritance t).ends hi)

/-- If all chains of targets end, every class keeps its parent. -/
theorem parent?_resolve_of_ends (ht : ∀ i, Ends t.target? i) (i : NodeId) :
    (resolve t).1.parent? i = t.heir? i := by
  refine Option.ext fun p => ?_
  rw [parent?_resolve_eq_some_iff]
  exact and_iff_right (not_loose_of_ends (ht i))

/-- If all chains of targets end, every class keeps its container. -/
theorem container?_resolve_of_ends (ht : ∀ i, Ends t.target? i) (i : NodeId) :
    (resolve t).1.container? i = t.containerOf i := by
  refine Option.ext fun c => ?_
  rw [container?_resolve_eq_some_iff]
  exact and_iff_right (not_loose_of_ends (ht i))

end Lineage.Links

namespace Lineage.Forest

open Chain

variable {ds : List Declaration} {i : NodeId}

/-- A parent is the base target of a class that is linked. -/
theorem parent?_build_eq_some_iff {p : NodeId} :
    (build ds).parent? i = some p ↔
      ¬ Links.Loose (Table.ofList ds) i ∧ (Table.ofList ds).BaseTarget i p := by
  rw [parent?_build, Links.parent?_resolve_eq_some_iff,
    Table.heir?_eq_some_iff (Table.distinct_ofList ds)]

/-- A container is the container target of a class that is linked. -/
theorem container?_build_eq_some_iff {c : NodeId} :
    (build ds).container? i = some c ↔
      ¬ Links.Loose (Table.ofList ds) i ∧ (Table.ofList ds).ContainerTarget i c := by
  rw [container?_build, Links.container?_resolve_eq_some_iff, Table.containerOf_eq_some_iff]

/-- The roots are the classes without a target and those that are not linked to it. -/
theorem mem_roots_build_iff :
    i ∈ (build ds).roots ↔ i < (build ds).size ∧
      (Links.Loose (Table.ofList ds) i ∨ ∀ j, ¬ (Table.ofList ds).Target i j) := by
  rw [mem_roots_build, above?_build, ← Table.target?_eq_none_iff (Table.distinct_ofList ds)]
  refine and_congr_right fun _ => ?_
  rw [Option.eq_none_iff_forall_ne_some, Option.eq_none_iff_forall_ne_some]
  simp only [ne_eq, Links.above?_resolve_eq_some_iff, not_and_or, not_not]
  exact forall_or_left

/-- **Links go to targets, and every chain of targets that ends is a chain of links.**  A parent
is always the base target and a container always the container target of a class; and a class
whose chain of targets ends hangs below its target, or is a root if it has none. -/
theorem links_build (ds : List Declaration) :
    (build ds).declarations = (Table.ofList ds).entries.toList ∧
    (∀ i p, (build ds).parent? i = some p → (Table.ofList ds).BaseTarget i p) ∧
    (∀ i c, (build ds).container? i = some c → (Table.ofList ds).ContainerTarget i c) ∧
    ∀ i < (build ds).size, (Table.ofList ds).Settles i →
      (∀ c, (Table.ofList ds).ContainerTarget i c →
        (build ds).container? i = some c ∧ (build ds).parent? i = none) ∧
      (∀ b, (Table.ofList ds).BaseTarget i b →
        (build ds).parent? i = some b ∧ (build ds).container? i = none) ∧
      ((∀ j, ¬ (Table.ofList ds).Target i j) → i ∈ (build ds).roots) := by
  refine ⟨declarations_build ds, fun i p h => (parent?_build_eq_some_iff.1 h).2,
    fun i c h => (container?_build_eq_some_iff.1 h).2, fun i hi hsettles => ?_⟩
  have hkept : ¬ Links.Loose (Table.ofList ds) i :=
    Links.not_loose_of_ends ((Table.settles_iff (Table.distinct_ofList ds)).1 hsettles)
  have hone : (build ds).parent? i = none ∨ (build ds).container? i = none := by
    rw [parent?_build, container?_build]
    exact Links.parent?_or_container?_resolve_eq_none _ i
  refine ⟨fun c hc => ?_, fun b hb => ?_, fun htop => ?_⟩
  · have hcontainer := container?_build_eq_some_iff.2 ⟨hkept, hc⟩
    exact ⟨hcontainer, hone.resolve_right (by rw [hcontainer]; simp)⟩
  · have hparent := parent?_build_eq_some_iff.2 ⟨hkept, hb⟩
    exact ⟨hparent, hone.resolve_left (by rw [hparent]; simp)⟩
  · exact mem_roots_build_iff.2 ⟨hi, Or.inr htop⟩

/-- A class below a class that is nested in a third one, beside two classes inside each other. -/
def besideLoop : List Declaration :=
  [{ name := "Leaf", scope := some "app", base := some "Mid", file := "Leaf.cs" },
   { name := "X", container := some "Y", file := "X.cs" },
   { name := "Mid", scope := some "app", container := some "Outer", file := "Mid.cs" },
   { name := "Y", container := some "X", file := "Y.cs" },
   { name := "Outer", base := some "Missing", file := "Outer.cs" }]

/-- The three classes that are not on the loop hang together. -/
theorem links_build_besideLoop :
    (Table.ofList besideLoop).Settles 0 ∧ (Table.ofList besideLoop).Settles 2 ∧
      (build besideLoop).parent? 0 = some 2 ∧ (build besideLoop).container? 2 = some 4 := by
  have ht := Table.distinct_ofList besideLoop
  have hsize : (build besideLoop).size = 5 := by decide +kernel
  have hleaf : (Table.ofList besideLoop).heir? 0 = some 2 := by decide +kernel
  have hmid : (Table.ofList besideLoop).containerOf 2 = some 4 := by decide +kernel
  have htop : (Table.ofList besideLoop).target? 4 = none := by decide +kernel
  have hends : Ends (Table.ofList besideLoop).target? 2 :=
    ⟨1, .up (by rw [Table.target?, hmid]; rfl) (.top htop)⟩
  have hleaf' : Leads (Table.ofList besideLoop).target? 0 2 :=
    .single (Table.narrows_heir? _ 0 2 hleaf)
  have h0 := (Table.settles_iff ht).2 (hends.of_leads hleaf')
  have h2 := (Table.settles_iff ht).2 hends
  have hlinks := (links_build besideLoop).2.2.2
  refine ⟨h0, h2, ?_, ?_⟩
  · exact ((hlinks 0 (by lia) h0).2.1 2 ((Table.heir?_eq_some_iff ht).1 hleaf)).1
  · exact ((hlinks 2 (by lia) h2).1 4 (Table.containerOf_eq_some_iff.1 hmid)).1

end Lineage.Forest
