import Lineage.Proofs.Table

/-!
# Which links a table is left with

The two passes over a table in closed form.  Linking to bases refuses the link of a class exactly
if that class is the last one, in the order of the table, of a loop of inheritance (`Refused`,
`inherited_inheritance`).  Cutting loose then takes away the link of a class exactly if the chain
above it does not end and the class stands before all classes on that chain (`Cut`,
`released_resolve`).  Every other class keeps the link to its target, and all chains end
(`above?_resolve_eq_some_iff`, `ends_above?_resolve`).
-/

namespace Lineage.Links

open Chain

variable {t : Table} {l : Links} {i j k : NodeId} {n : Nat}

/-- What each step of a pass over the first `n` classes carries on to the next class holds after
the pass. -/
theorem foldl_range_induction {α : Type} (f : α → NodeId → α) (P : Nat → α → Prop) (a : α)
    (n : Nat) (h0 : P 0 a) (hstep : ∀ k a, k < n → P k a → P (k + 1) (f a k)) :
    P n ((List.range n).foldl f a) := by
  induction n with
  | zero => exact h0
  | succ n ih =>
    rw [List.range_succ, List.foldl_append, List.foldl_cons, List.foldl_nil]
    exact hstep n _ (by omega) (ih fun k a hk => hstep k a (by omega))

/-! ### Reading links -/

theorem above?_eq_some_iff :
    l.above? i = some j ↔ l.parent? i = some j ∨ l.parent? i = none ∧ l.container? i = some j := by
  unfold above?
  rw [Option.or_eq_some_iff]

theorem above?_eq_none_iff : l.above? i = none ↔ l.parent? i = none ∧ l.container? i = none := by
  unfold above?
  rw [Option.or_eq_none_iff]

theorem parent?_nesting (t : Table) (i : NodeId) : (nesting t).parent? i = none := by
  unfold parent? nesting
  rw [Array.getElem?_replicate]
  split_ifs <;> rfl

theorem container?_nesting (t : Table) (i : NodeId) :
    (nesting t).container? i = t.containerOf i := by
  unfold container? nesting
  rw [List.getElem?_toArray, List.getElem?_map]
  by_cases hi : i < t.size
  · rw [List.getElem?_range hi]
    rfl
  · have hnone : t.containerOf i = none := by
      unfold Table.containerOf
      rw [Array.getElem?_eq_none (Nat.le_of_not_lt hi)]
      rfl
    rw [hnone, List.getElem?_eq_none (by rw [List.length_range]; exact Nat.le_of_not_lt hi)]
    rfl

/-- Writing the parent of one class. -/
theorem parent?_set_some {p : NodeId} (hk : k < l.parents.size) :
    parent? { l with parents := l.parents.setIfInBounds k (some p) } i =
      if i = k then some p else l.parent? i := by
  unfold parent?
  by_cases hik : i = k
  · subst hik
    rw [Array.getElem?_setIfInBounds_self_of_lt hk, if_pos rfl]
    rfl
  · rw [Array.getElem?_setIfInBounds_ne (Ne.symm hik), if_neg hik]

/-- Erasing the entry of one class. -/
theorem join_set_none (links : Array (Option NodeId)) :
    (links.setIfInBounds k none)[i]?.join = if i = k then none else links[i]?.join := by
  by_cases hik : i = k
  · subst hik
    rw [Array.getElem?_setIfInBounds_self, if_pos rfl]
    split_ifs <;> rfl
  · rw [Array.getElem?_setIfInBounds_ne (Ne.symm hik), if_neg hik]

/-! ### Linking to bases -/

/-- Class `i` is the last class of a loop of inheritance, in the order of the table. -/
def Refused (t : Table) (i : NodeId) : Prop :=
  OnLoop t.heir? i ∧ ∀ j, Leads t.heir? i j → j ≤ i

/-- The links when the first `k` classes have been linked to their bases. -/
structure Inherited (t : Table) (k : Nat) (l : Links) : Prop where
  size : l.parents.size = t.size
  container : ∀ i, l.container? i = t.containerOf i
  parent : ∀ i p, l.parent? i = some p ↔ i < k ∧ ¬ Refused t i ∧ t.heir? i = some p

namespace Inherited

theorem narrows (h : Inherited t k l) : Narrows l.parent? t.heir? :=
  fun i p hip => ((h.parent i p).1 hip).2.2

theorem within (h : Inherited t k l) : Within l.parent? t.size :=
  h.narrows.within ((Table.narrows_heir? t).within (Table.within_target? t))

/-- No loop of inheritance is ever closed: its last class would have been refused. -/
theorem not_onLoop (h : Inherited t k l) : ¬ OnLoop l.parent? i := by
  intro hloop
  obtain ⟨m, him, hmax⟩ := h.within.exists_greatest hloop
  have hm : OnLoop l.parent? m := hloop.of_leads him
  obtain ⟨p, hp⟩ := hm.exists_step
  refine ((h.parent m p).1 hp).2.1 ⟨h.narrows.onLoop hm, fun j hmj => ?_⟩
  exact hmax j (him.trans (h.narrows.leads_of_onLoop hm hmj))

theorem ends (h : Inherited t k l) : Ends l.parent? i :=
  h.within.ends_of_no_loop fun _ => h.not_onLoop

/-- The chain from the base of the next class comes back to the class exactly if the class is the
last one of its loop: the others of the loop have been linked, and no later class has. -/
theorem leads_base_iff (h : Inherited t k l) {base : NodeId} (hbase : t.heir? k = some base) :
    Leads l.parent? base k ↔ Refused t k := by
  constructor
  · intro hchain
    refine ⟨.of_step_of_leads hbase (h.narrows.leads hchain), fun j hkj => ?_⟩
    -- what `k` leads to has a chain of links back to `k`, so it was linked before `k`
    have hback : Leads l.parent? j k := by
      induction hkj with
      | refl => exact .refl
      | @tail b c _ hbc ih =>
        rcases Relation.ReflTransGen.cases_head ih with rfl | ⟨d, hbd, hdk⟩
        · obtain rfl := Option.some.inj (hbase.symm.trans hbc)
          exact hchain
        · obtain rfl := Option.some.inj ((h.narrows b d hbd).symm.trans hbc)
          exact hdk
    rcases Relation.ReflTransGen.cases_head hback with rfl | ⟨d, hjd, _⟩
    · exact le_rfl
    · exact ((h.parent j d).1 hjd).1.le
  · rintro ⟨hloop, hmax⟩
    have hchain : Leads t.heir? base k := hloop.leads_back (.single hbase)
    -- a class between `base` and `k` stands before the last class of the loop, so it is linked
    refine hchain.of_agree fun j hbj hjk hne => ?_
    have hkj : Leads t.heir? k j := .head hbase hbj
    have hlt : j < k := lt_of_le_of_ne (hmax j hkj) hne
    have hkept : ¬ Refused t j := fun hj => absurd (hj.2 k hjk) (not_le.2 hlt)
    obtain ⟨c, hjc⟩ := (hloop.of_leads hkj).exists_step
    rw [hjc]
    exact (h.parent j c).2 ⟨hlt, hkept, hjc⟩

/-- The search for a closed loop finds exactly the classes to refuse. -/
theorem onChain_iff (h : Inherited t k l) {base : NodeId} (hbase : t.heir? k = some base) :
    onChain l.parent? k t.size base = true ↔ Refused t k := by
  have hsize : base < t.size :=
    (Table.within_target? t k base (Table.narrows_heir? t k base hbase)).2
  rw [h.within.onChain_iff hsize h.ends, h.leads_base_iff hbase]

/-- A class that gets no link leaves the links as they are. -/
theorem skip (h : Inherited t k l) (hk : Refused t k ∨ t.heir? k = none) :
    Inherited t (k + 1) l := by
  refine ⟨h.size, h.container, fun i p => (h.parent i p).trans ?_⟩
  refine and_congr_left fun hi => ⟨fun hlt => by lia, fun hlt => ?_⟩
  have hne : i ≠ k := by
    rintro rfl
    rcases hk with hk | hk
    · exact hi.1 hk
    · rw [hi.2] at hk; cases hk
  lia

theorem step (h : Inherited t k l) (hk : k < t.size) : Inherited t (k + 1) (inherit t l k) := by
  unfold inherit
  rw [h.container k]
  cases hc : t.containerOf k with
  | some c => exact h.skip (Or.inr (Table.heir?_of_containerOf hc))
  | none =>
    have hheir : t.heir? k = t.baseOf k := Table.heir?_of_containerOf_none hc
    cases hb : t.baseOf k with
    | none => exact h.skip (Or.inr (hheir.trans hb))
    | some base =>
      rw [hb] at hheir
      by_cases href : Refused t k
      · simp only [(h.onChain_iff hheir).2 href, ite_true]
        exact h.skip (Or.inl href)
      · have hchain : ¬ onChain l.parent? k t.size base = true :=
          fun hon => href ((h.onChain_iff hheir).1 hon)
        simp only [hchain, Bool.false_eq_true, ite_false]
        -- the link of `k` is written, and no other one is touched
        have hsize : k < l.parents.size := by rw [h.size]; exact hk
        refine ⟨by rw [Array.size_setIfInBounds]; exact h.size, h.container, fun i p => ?_⟩
        rw [parent?_set_some hsize]
        by_cases hik : i = k
        · subst hik
          rw [if_pos rfl, hheir]
          exact ⟨fun hp => ⟨Nat.lt_succ_self i, href, hp⟩, fun hp => hp.2.2⟩
        · rw [if_neg hik, h.parent i p]
          exact and_congr_left fun _ => ⟨fun hlt => by lia, fun hlt => by lia⟩

end Inherited

/-- Before the first pass no class is linked to its base. -/
theorem inherited_nesting (t : Table) : Inherited t 0 (nesting t) := by
  refine ⟨by simp [nesting], container?_nesting t, fun i p => ?_⟩
  rw [parent?_nesting]
  simp

/-- **The links after the first pass.** -/
theorem inherited_inheritance (t : Table) : Inherited t t.size (inheritance t) := by
  unfold inheritance
  exact foldl_range_induction _ (Inherited t) _ t.size (inherited_nesting t)
    fun k l hk h => h.step hk

/-- A class has a link after the first pass unless it is refused. -/
theorem parent?_inheritance_eq_some_iff {p : NodeId} :
    (inheritance t).parent? i = some p ↔ ¬ Refused t i ∧ t.heir? i = some p := by
  rw [(inherited_inheritance t).parent i p]
  refine and_iff_right_of_imp fun h => ?_
  exact (Table.within_target? t i p (Table.narrows_heir? t i p h.2)).1

theorem container?_inheritance : (inheritance t).container? i = t.containerOf i :=
  (inherited_inheritance t).container i

/-- A refused class has no container. -/
theorem Refused.containerOf_eq_none (h : Refused t i) : t.containerOf i = none := by
  obtain ⟨j, hj⟩ := h.1.exists_step
  cases hc : t.containerOf i with
  | none => rfl
  | some c =>
    rw [Table.heir?_of_containerOf hc] at hj
    cases hj

/-- After the first pass a class hangs below its target unless it is refused. -/
theorem above?_inheritance_eq_some_iff :
    (inheritance t).above? i = some j ↔ ¬ Refused t i ∧ t.target? i = some j := by
  rw [above?_eq_some_iff, container?_inheritance, parent?_inheritance_eq_some_iff,
    Table.target?_eq_or_heir?, Option.or_eq_some_iff]
  cases hc : t.containerOf i with
  | some c =>
    have hkept : ¬ Refused t i := fun h => by rw [h.containerOf_eq_none] at hc; cases hc
    have hnone : (inheritance t).parent? i = none := by
      rw [Option.eq_none_iff_forall_ne_some]
      intro p hp
      rw [parent?_inheritance_eq_some_iff, Table.heir?_of_containerOf hc] at hp
      cases hp.2
    simp [hkept, hnone, Table.heir?_of_containerOf hc]
  | none => simp

/-! ### Cutting loose -/

/-- The chain above class `i` does not end, and `i` stands before all classes on it. -/
def Cut (above : NodeId → Option NodeId) (i : NodeId) : Prop :=
  ¬ Ends above i ∧ ∀ j, Leads above i j → i ≤ j

/-- On a chain that does not end, the first class in the order of the table is to be cut loose. -/
theorem exists_cut {above : NodeId → Option NodeId} (hi : ¬ Ends above i) :
    ∃ m, Leads above i m ∧ Cut above m ∧ ∀ j, Leads above i j → m ≤ j := by
  obtain ⟨m, him, hmin⟩ := exists_least above i
  refine ⟨m, him, ⟨fun hm => hi (hm.of_leads him), fun j hmj => ?_⟩, hmin⟩
  exact hmin j (him.trans hmj)

/-- The links, and the classes cut loose, when the pass has come to class `k`. -/
structure Released (before : Links) (k : Nat) (state : Links × List NodeId) : Prop where
  cut : ∀ i, i < k → Cut before.above? i →
    state.1.parent? i = none ∧ state.1.container? i = none
  kept : ∀ i, ¬ (i < k ∧ Cut before.above? i) →
    state.1.parent? i = before.parent? i ∧ state.1.container? i = before.container? i
  mem : ∀ i, i ∈ state.2 ↔ i < k ∧ Cut before.above? i
  sorted : state.2.Pairwise (· < ·)

namespace Released

variable {before : Links} {state : Links × List NodeId}

theorem above?_cut (h : Released before k state) (hi : i < k) (hcut : Cut before.above? i) :
    state.1.above? i = none :=
  above?_eq_none_iff.2 (h.cut i hi hcut)

theorem above?_kept (h : Released before k state) (hi : ¬ (i < k ∧ Cut before.above? i)) :
    state.1.above? i = before.above? i := by
  unfold above?
  rw [(h.kept i hi).1, (h.kept i hi).2]

theorem narrows (h : Released before k state) : Narrows state.1.above? before.above? := by
  intro i j hij
  by_cases hi : i < k ∧ Cut before.above? i
  · rw [h.above?_cut hi.1 hi.2] at hij
    cases hij
  · rw [← h.above?_kept hi]
    exact hij

/-- A chain ends by now if it ended before or comes past a class that is due by now. -/
theorem ends_of_lt (h : Released before k state)
    (hi : ∀ m, Leads before.above? i m → Cut before.above? m → m < k) :
    Ends state.1.above? i := by
  by_cases hend : Ends before.above? i
  · exact h.narrows.ends hend
  · obtain ⟨m, him, hm, _⟩ := exists_cut hend
    have htop : state.1.above? m = none := h.above?_cut (hi m him hm) hm
    exact h.narrows.ends_of_leads him (.of_none htop)

/-- The chain above the next class does not end exactly if the class is to be cut loose. -/
theorem ends_iff (h : Released before k state) : Ends state.1.above? k ↔ ¬ Cut before.above? k := by
  constructor
  · rintro hend ⟨hloop, hmin⟩
    -- nothing above `k` has been cut, so the chain is still the one from before the pass
    refine hloop (hend.of_agree fun j hkj => h.above?_kept fun hj => ?_)
    exact absurd (hmin j hkj) (not_le.2 hj.1)
  · intro hk
    by_cases hend : Ends before.above? k
    · exact h.narrows.ends hend
    · -- the first class of the chain has had its turn, and the chain ends there now
      obtain ⟨m, hkm, hm, hmin⟩ := exists_cut hend
      have hne : m ≠ k := by
        rintro rfl
        exact hk hm
      have hlt : m < k := lt_of_le_of_ne (hmin k .refl) hne
      exact h.narrows.ends_of_leads hkm (.of_none (h.above?_cut hlt hm))

/-- A class that is not to be cut loose leaves the state as it is. -/
theorem keep (h : Released before k state) (hk : ¬ Cut before.above? k) :
    Released before (k + 1) state := by
  have hdue : ∀ i, i < k + 1 ∧ Cut before.above? i ↔ i < k ∧ Cut before.above? i := by
    refine fun i => and_congr_left fun hi => ⟨fun hlt => ?_, Nat.lt_succ_of_lt⟩
    rcases Nat.lt_succ_iff_lt_or_eq.1 hlt with hlt | rfl
    · exact hlt
    · exact absurd hi hk
  refine ⟨fun i hi hcut => ?_, fun i hi => ?_, fun i => ?_, h.sorted⟩
  · exact h.cut i ((hdue i).1 ⟨hi, hcut⟩).1 hcut
  · exact h.kept i fun hlt => hi ((hdue i).2 hlt)
  · rw [hdue i]
    exact h.mem i

/-- A class that is to be cut loose loses its links. -/
theorem erase {released : List NodeId} (h : Released before k (l, released))
    (hk : Cut before.above? k) :
    Released before (k + 1)
      (⟨l.parents.setIfInBounds k none, l.containers.setIfInBounds k none⟩,
        released ++ [k]) := by
  refine ⟨fun i hi hcut => ?_, fun i hi => ?_, fun i => ?_, ?_⟩
  · show (l.parents.setIfInBounds k none)[i]?.join = none ∧
      (l.containers.setIfInBounds k none)[i]?.join = none
    rw [join_set_none, join_set_none]
    by_cases hik : i = k
    · rw [if_pos hik, if_pos hik]
      exact ⟨rfl, rfl⟩
    · rw [if_neg hik, if_neg hik]
      exact h.cut i (by lia) hcut
  · have hik : i ≠ k := by
      rintro rfl
      exact hi ⟨Nat.lt_succ_self i, hk⟩
    show (l.parents.setIfInBounds k none)[i]?.join = before.parent? i ∧
      (l.containers.setIfInBounds k none)[i]?.join = before.container? i
    rw [join_set_none, join_set_none, if_neg hik, if_neg hik]
    exact h.kept i fun hlt => hi ⟨Nat.lt_succ_of_lt hlt.1, hlt.2⟩
  · rw [List.mem_append, List.mem_singleton, h.mem i]
    constructor
    · rintro (⟨hlt, hi⟩ | rfl)
      · exact ⟨Nat.lt_succ_of_lt hlt, hi⟩
      · exact ⟨Nat.lt_succ_self i, hk⟩
    · rintro ⟨hlt, hi⟩
      rcases Nat.lt_succ_iff_lt_or_eq.1 hlt with hlt | rfl
      · exact Or.inl ⟨hlt, hi⟩
      · exact Or.inr rfl
  · rw [List.pairwise_append]
    refine ⟨h.sorted, List.pairwise_singleton _ _, fun a ha b hb => ?_⟩
    rw [List.mem_singleton.1 hb]
    exact ((h.mem a).1 ha).1

theorem step (h : Released before k state) (hw : Within before.above? n) (hk : k < n) :
    Released before (k + 1) (release n state k) := by
  obtain ⟨l, released⟩ := state
  have hends : Links.ends l.above? n k = true ↔ ¬ Cut before.above? k := by
    rw [(h.narrows.within hw).ends_iff hk]
    exact h.ends_iff
  by_cases hcut : Cut before.above? k
  · have hrelease : release n (l, released) k =
        (⟨l.parents.setIfInBounds k none, l.containers.setIfInBounds k none⟩,
          released ++ [k]) := by
      unfold release
      exact if_neg fun hend => hends.1 hend hcut
    rw [hrelease]
    exact h.erase hcut
  · have hrelease : release n (l, released) k = (l, released) := by
      unfold release
      exact if_pos (hends.2 hcut)
    rw [hrelease]
    exact h.keep hcut

end Released

/-- After the first pass links lead from classes of the table to classes of the table. -/
theorem within_above?_inheritance (t : Table) : Within (inheritance t).above? t.size :=
  fun i j hij => Table.within_target? t i j (above?_inheritance_eq_some_iff.1 hij).2

/-- **The links after the second pass.** -/
theorem released_resolve (t : Table) : Released (inheritance t) t.size (resolve t) := by
  unfold resolve
  refine foldl_range_induction _ (Released (inheritance t)) _ t.size ?_
    fun k state hk h => h.step (within_above?_inheritance t) hk
  exact ⟨fun i hi => by lia, fun i _ => ⟨rfl, rfl⟩, fun i => by simp, List.Pairwise.nil⟩

/-! ### The links that are left -/

/-- Class `i` has a target but is not linked to it. -/
def Loose (t : Table) (i : NodeId) : Prop :=
  Refused t i ∨ Cut (inheritance t).above? i

theorem Cut.lt_size (h : Cut (inheritance t).above? i) : i < t.size := by
  by_contra hi
  refine h.1 (.of_none ?_)
  rw [Option.eq_none_iff_forall_ne_some]
  exact fun j hij => hi (within_above?_inheritance t i j hij).1

/-- The classes cut loose are those to be cut loose. -/
theorem mem_resolve_iff : i ∈ (resolve t).2 ↔ Cut (inheritance t).above? i := by
  rw [(released_resolve t).mem i]
  exact and_iff_right_of_imp Cut.lt_size

/-- The classes cut loose are in the order of the table. -/
theorem sorted_resolve (t : Table) : (resolve t).2.Pairwise (· < ·) :=
  (released_resolve t).sorted

/-- The container of a class is its container target, unless the class is cut loose. -/
theorem container?_resolve_eq_some_iff {c : NodeId} :
    (resolve t).1.container? i = some c ↔ ¬ Loose t i ∧ t.containerOf i = some c := by
  unfold Loose
  by_cases hcut : Cut (inheritance t).above? i
  · rw [((released_resolve t).cut i hcut.lt_size hcut).2]
    simp [hcut]
  · rw [((released_resolve t).kept i fun h => hcut h.2).2, container?_inheritance]
    refine ⟨fun hc => ⟨?_, hc⟩, And.right⟩
    rintro (href | h)
    · rw [href.containerOf_eq_none] at hc
      cases hc
    · exact hcut h

/-- The parent of a class is its base target, unless the class is refused or cut loose. -/
theorem parent?_resolve_eq_some_iff {p : NodeId} :
    (resolve t).1.parent? i = some p ↔ ¬ Loose t i ∧ t.heir? i = some p := by
  unfold Loose
  by_cases hcut : Cut (inheritance t).above? i
  · rw [((released_resolve t).cut i hcut.lt_size hcut).1]
    simp [hcut]
  · rw [((released_resolve t).kept i fun h => hcut h.2).1, parent?_inheritance_eq_some_iff]
    simp [hcut]

/-- A class hangs below its target unless it is refused or cut loose. -/
theorem above?_resolve_eq_some_iff :
    (resolve t).1.above? i = some j ↔ ¬ Loose t i ∧ t.target? i = some j := by
  unfold Loose
  by_cases hcut : Cut (inheritance t).above? i
  · rw [(released_resolve t).above?_cut hcut.lt_size hcut]
    simp [hcut]
  · rw [(released_resolve t).above?_kept fun h => hcut h.2, above?_inheritance_eq_some_iff]
    simp [hcut]

/-- No class has both a parent and a container. -/
theorem parent?_or_container?_resolve_eq_none (t : Table) (i : NodeId) :
    (resolve t).1.parent? i = none ∨ (resolve t).1.container? i = none := by
  by_contra h
  rw [not_or] at h
  obtain ⟨p, hp⟩ := Option.ne_none_iff_exists'.1 h.1
  obtain ⟨c, hc⟩ := Option.ne_none_iff_exists'.1 h.2
  have hheir := (parent?_resolve_eq_some_iff.1 hp).2
  rw [Table.heir?_of_containerOf (container?_resolve_eq_some_iff.1 hc).2] at hheir
  cases hheir

/-- Links lead from classes of the table to classes of the table. -/
theorem within_above?_resolve (t : Table) : Within (resolve t).1.above? t.size :=
  fun i j hij => Table.within_target? t i j (above?_resolve_eq_some_iff.1 hij).2

theorem within_parent?_resolve (t : Table) : Within (resolve t).1.parent? t.size :=
  fun i p hip => within_above?_resolve t i p (above?_eq_some_iff.2 (Or.inl hip))

theorem within_container?_resolve (t : Table) : Within (resolve t).1.container? t.size := by
  intro i c hic
  have hparent : (resolve t).1.parent? i = none :=
    (parent?_or_container?_resolve_eq_none t i).resolve_right (by rw [hic]; simp)
  exact within_above?_resolve t i c (above?_eq_some_iff.2 (Or.inr ⟨hparent, hic⟩))

/-- **All chains of links end.** -/
theorem ends_above?_resolve (t : Table) (i : NodeId) : Ends (resolve t).1.above? i :=
  (released_resolve t).ends_of_lt fun _ _ hm => hm.lt_size

end Lineage.Links
