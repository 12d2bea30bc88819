import Lineage.Forest.Links
import Mathlib.Data.Finset.Card
import Mathlib.Logic.Relation
import Mathlib.Order.Lattice.Nat
import Mathlib.Tactic.Choose

/-!
# Chains of a step that may end

A step sends a class to the class above it, or to nothing.  The chain from a class either ends
(`Ends`, with the number of its steps in `Height`) or runs into a loop (`OnLoop`), and inside a
table of `n` classes there is no third way (`Within.exists_onLoop`).  The chain that ends has
fewer than `n` steps (`Within.height_lt`), so the bounded searches `Links.ends` and
`Links.onChain` never stop for want of fuel (`Within.ends_iff`, `Within.onChain_iff`).
-/

namespace Lineage.Chain

variable {step wider : NodeId → Option NodeId} {i j k : NodeId} {m n : Nat}

/-- The chain of `step` from one class comes past another; it comes past its start. -/
abbrev Leads (step : NodeId → Option NodeId) : NodeId → NodeId → Prop :=
  Relation.ReflTransGen (fun a b => step a = some b)

/-- The chain of `step` from `i` comes back to `i`. -/
abbrev OnLoop (step : NodeId → Option NodeId) (i : NodeId) : Prop :=
  Relation.TransGen (fun a b => step a = some b) i i

/-- The chain of `step` from a class ends after exactly so many steps. -/
inductive Height (step : NodeId → Option NodeId) : NodeId → Nat → Prop
  | top {i : NodeId} (h : step i = none) : Height step i 0
  | up {i j : NodeId} {n : Nat} (h : step i = some j) (above : Height step j n) :
    Height step i (n + 1)

/-- The chain of `step` from `i` ends. -/
def Ends (step : NodeId → Option NodeId) (i : NodeId) : Prop :=
  ∃ n, Height step i n

/-- Every step goes from one of the first `n` classes to one of them. -/
def Within (step : NodeId → Option NodeId) (n : Nat) : Prop :=
  ∀ i j, step i = some j → i < n ∧ j < n

/-- Every step of the first kind is one of the second kind too. -/
def Narrows (step wider : NodeId → Option NodeId) : Prop :=
  ∀ i j, step i = some j → wider i = some j

/-! ### Leading and looping -/

/-- Of two classes on one chain, one leads to the other. -/
theorem Leads.total (hj : Leads step i j) (hk : Leads step i k) :
    Leads step j k ∨ Leads step k j := by
  refine Relation.ReflTransGen.total_of_right_unique ?_ hj hk
  intro a b c hab hac
  exact Option.some.inj (hab.symm.trans hac)

/-- A chain that goes on past its start goes through the next class. -/
theorem Leads.eq_or_next (h : Leads step i k) (hij : step i = some j) :
    k = i ∨ Leads step j k := by
  rcases Relation.ReflTransGen.cases_head h with rfl | ⟨c, hic, hck⟩
  · exact Or.inl rfl
  · obtain rfl := Option.some.inj (hij.symm.trans hic)
    exact Or.inr hck

/-- The class after one on a loop is on a loop. -/
theorem OnLoop.next (h : OnLoop step i) (hij : step i = some j) : OnLoop step j := by
  obtain ⟨c, hic, hci⟩ := Relation.TransGen.head'_iff.1 h
  obtain rfl := Option.some.inj (hij.symm.trans hic)
  exact Relation.TransGen.tail' hci hij

/-- A class on a loop takes a step. -/
theorem OnLoop.exists_step (h : OnLoop step i) : ∃ j, step i = some j := by
  obtain ⟨c, hic, _⟩ := Relation.TransGen.head'_iff.1 h
  exact ⟨c, hic⟩

/-- A chain from a loop stays on loops. -/
theorem OnLoop.of_leads (h : OnLoop step i) (hij : Leads step i j) : OnLoop step j := by
  induction hij with
  | refl => exact h
  | tail _ hstep ih => exact ih.next hstep

/-- A chain from a loop leads back. -/
theorem OnLoop.leads_back (h : OnLoop step i) (hij : Leads step i j) : Leads step j i := by
  induction hij using Relation.ReflTransGen.head_induction_on with
  | refl => exact .refl
  | @head a c hac _ ih =>
    obtain ⟨d, had, hda⟩ := Relation.TransGen.head'_iff.1 h
    obtain rfl := Option.some.inj (hac.symm.trans had)
    exact (ih (h.next hac)).trans hda

/-- A chain that leads on and back again is a loop. -/
theorem OnLoop.of_step_of_leads (hij : step i = some j) (hji : Leads step j i) :
    OnLoop step i :=
  Relation.TransGen.head' hij hji

/-- Chains of a narrower step are chains of the wider one. -/
theorem Narrows.leads (h : Narrows step wider) (hij : Leads step i j) : Leads wider i j :=
  Relation.ReflTransGen.mono h _ _ hij

/-- Loops of a narrower step are loops of the wider one. -/
theorem Narrows.onLoop (h : Narrows step wider) (hi : OnLoop step i) : OnLoop wider i :=
  Relation.TransGen.mono h _ _ hi

/-- A narrower step stays within the same classes. -/
theorem Narrows.within (h : Narrows step wider) (hw : Within wider n) : Within step n :=
  fun i j hij => hw i j (h i j hij)

/-- A loop of a narrower step is the whole chain of the wider one. -/
theorem Narrows.leads_of_onLoop (h : Narrows step wider) (hi : OnLoop step i)
    (hij : Leads wider i j) : Leads step i j := by
  induction hij with
  | refl => exact .refl
  | @tail b c _ hbc ih =>
    -- a class on the loop takes a narrower step, and there is only one wider step to take
    obtain ⟨d, hbd⟩ := (hi.of_leads ih).exists_step
    obtain rfl := Option.some.inj ((h b d hbd).symm.trans hbc)
    exact ih.tail hbd

/-- If a narrower step takes every step of a chain, it has the chain too. -/
theorem Leads.of_agree (hij : Leads wider i j)
    (h : ∀ k, Leads wider i k → Leads wider k j → k ≠ j → step k = wider k) :
    Leads step i j := by
  induction hij using Relation.ReflTransGen.head_induction_on with
  | refl => exact .refl
  | @head a c hac hcj ih =>
    by_cases haj : a = j
    · rw [haj]
    · have hstep : step a = some c := (h a .refl (.head hac hcj) haj).trans hac
      exact .head hstep (ih fun k hck => h k (.head hac hck))

/-! ### Chains that end -/

/-- The number of steps of a chain is unique. -/
theorem Height.unique (hm : Height step i m) (hn : Height step i n) : m = n := by
  induction hm generalizing n with
  | top h =>
    cases hn with
    | top => rfl
    | up h' => rw [h] at h'; cases h'
  | up h _ ih =>
    cases hn with
    | top h' => rw [h] at h'; cases h'
    | up h' above' =>
      rw [h] at h'
      obtain rfl := Option.some.inj h'
      rw [ih above']

/-- A chain that ends does so from the next class, with one step less. -/
theorem Height.next (hn : Height step i n) (hij : step i = some j) :
    ∃ m, n = m + 1 ∧ Height step j m := by
  cases hn with
  | top h => rw [h] at hij; cases hij
  | up h above =>
    obtain rfl := Option.some.inj (h.symm.trans hij)
    exact ⟨_, rfl, above⟩

/-- A class without a step ends its chain. -/
theorem Ends.of_none (h : step i = none) : Ends step i :=
  ⟨0, .top h⟩

/-- A chain ends if it comes to a class from which it ends. -/
theorem Ends.of_leads (hj : Ends step j) (hij : Leads step i j) : Ends step i := by
  induction hij using Relation.ReflTransGen.head_induction_on with
  | refl => exact hj
  | head hstep _ ih =>
    obtain ⟨n, hn⟩ := ih
    exact ⟨n + 1, .up hstep hn⟩

/-- A chain that ends does so from each of its classes. -/
theorem Ends.leads (hi : Ends step i) (hij : Leads step i j) : Ends step j := by
  induction hij with
  | refl => exact hi
  | tail _ hstep ih =>
    obtain ⟨n, hn⟩ := ih
    obtain ⟨m, _, hm⟩ := hn.next hstep
    exact ⟨m, hm⟩

/-- A chain that ends leads to a class without a step. -/
theorem Ends.exists_top (hi : Ends step i) : ∃ j, Leads step i j ∧ step j = none := by
  obtain ⟨n, hn⟩ := hi
  induction hn with
  | top h => exact ⟨_, .refl, h⟩
  | up h _ ih =>
    obtain ⟨j, hj, htop⟩ := ih
    exact ⟨j, .head h hj, htop⟩

/-- No chain that ends starts on a loop. -/
theorem Ends.not_onLoop (hi : Ends step i) : ¬ OnLoop step i := by
  obtain ⟨n, hn⟩ := hi
  induction hn with
  | top h =>
    intro hloop
    obtain ⟨j, hj⟩ := hloop.exists_step
    rw [h] at hj
    cases hj
  | up h _ ih => exact fun hloop => ih (hloop.next h)

/-- Leaving out steps keeps the chains that end. -/
theorem Narrows.ends (h : Narrows step wider) (hi : Ends wider i) : Ends step i := by
  obtain ⟨n, hn⟩ := hi
  induction hn with
  | top htop =>
    refine .of_none ?_
    rw [Option.eq_none_iff_forall_ne_some]
    intro j hj
    rw [h _ j hj] at htop
    cases htop
  | @up a b _ hab _ ih =>
    cases hstep : step a with
    | none => exact .of_none hstep
    | some c =>
      obtain rfl := Option.some.inj ((h a c hstep).symm.trans hab)
      exact ih.of_leads (.single hstep)

/-- A chain cut short somewhere ends if it ends from a class on the uncut chain. -/
theorem Narrows.ends_of_leads (h : Narrows step wider) (hij : Leads wider i j)
    (hj : Ends step j) : Ends step i := by
  induction hij using Relation.ReflTransGen.head_induction_on with
  | refl => exact hj
  | @head a c hac _ ih =>
    cases hstep : step a with
    | none => exact .of_none hstep
    | some d =>
      obtain rfl := Option.some.inj ((h a d hstep).symm.trans hac)
      exact ih.of_leads (.single hstep)

/-- Steps that agree along a chain end together. -/
theorem Ends.of_agree (hi : Ends step i) (h : ∀ j, Leads wider i j → step j = wider j) :
    Ends wider i := by
  obtain ⟨n, hn⟩ := hi
  induction hn with
  | top htop => exact .of_none ((h _ .refl).symm.trans htop)
  | @up a b _ hab _ ih =>
    have hwide : wider a = some b := (h a .refl).symm.trans hab
    exact (ih fun j hj => h j (.head hwide hj)).of_leads (.single hwide)

/-! ### Chains within a table -/

/-- A chain that ends within `n` classes has fewer than `n` steps: each number of steps up to its
own is that of some class on it, and of one class only. -/
theorem Within.height_lt (h : Within step n) (hi : i < n) (hm : Height step i m) : m < n := by
  have hocc : ∀ k ≤ m, ∃ j, j < n ∧ Height step j k := by
    induction hm with
    | top htop =>
      intro k hk
      rw [Nat.le_zero.1 hk]
      exact ⟨_, hi, .top htop⟩
    | @up a b m hab above ih =>
      intro k hk
      rcases Nat.lt_or_eq_of_le hk with hlt | rfl
      · exact ih (h a b hab).2 k (by omega)
      · exact ⟨a, hi, .up hab above⟩
  -- `at_ k` has `k` steps before its chain ends, so different `k` give different classes
  choose! at_ hat using hocc
  have hinj : Set.InjOn at_ (Finset.range (m + 1)) := by
    intro a ha b hb hab
    rw [Finset.coe_range, Set.mem_Iio] at ha hb
    have hheight := (hat a (by omega)).2
    rw [hab] at hheight
    exact hheight.unique (hat b (by omega)).2
  have hcard : (Finset.range (m + 1)).card ≤ (Finset.range n).card := by
    refine Finset.card_le_card_of_injOn at_ ?_ hinj
    intro a ha
    rw [Finset.coe_range, Set.mem_Iio] at ha ⊢
    exact (hat a (by omega)).1
  rw [Finset.card_range, Finset.card_range] at hcard
  omega

/-- A chain that has already come past the classes `seen` ends or comes to a loop; the induction
is on the number of classes it has not seen. -/
theorem Within.ends_or_onLoop (h : Within step n) (rest : Nat) :
    ∀ (seen : Finset NodeId) (i : NodeId),
      (∀ s ∈ seen, s < n ∧ Relation.TransGen (fun a b => step a = some b) s i) →
      n ≤ seen.card + rest →
      Ends step i ∨ ∃ j, Leads step i j ∧ OnLoop step j := by
  induction rest with
  | zero =>
    intro seen i hseen hcard
    cases hstep : step i with
    | none => exact Or.inl (.of_none hstep)
    | some j =>
      -- all classes are seen, so the chain stands on one of them again
      have hsub : seen ⊆ Finset.range n := fun s hs => Finset.mem_range.2 (hseen s hs).1
      have hall : seen = Finset.range n :=
        Finset.eq_of_subset_of_card_le hsub (by rw [Finset.card_range]; omega)
      have hi : i ∈ seen := by
        rw [hall, Finset.mem_range]
        exact (h i j hstep).1
      exact Or.inr ⟨i, .refl, (hseen i hi).2⟩
  | succ rest ih =>
    intro seen i hseen hcard
    cases hstep : step i with
    | none => exact Or.inl (.of_none hstep)
    | some j =>
      by_cases hi : i ∈ seen
      · exact Or.inr ⟨i, .refl, (hseen i hi).2⟩
      · have hseen' : ∀ s ∈ insert i seen,
            s < n ∧ Relation.TransGen (fun a b => step a = some b) s j := by
          intro s hs
          rcases Finset.mem_insert.1 hs with rfl | hs
          · exact ⟨(h s j hstep).1, .single hstep⟩
          · exact ⟨(hseen s hs).1, (hseen s hs).2.tail hstep⟩
        have hcard' : n ≤ (insert i seen).card + rest := by
          rw [Finset.card_insert_of_notMem hi]
          omega
        rcases ih (insert i seen) j hseen' hcard' with hend | ⟨k, hjk, hloop⟩
        · exact Or.inl (hend.of_leads (.single hstep))
        · exact Or.inr ⟨k, .head hstep hjk, hloop⟩

/-- A chain within a table that does not end comes to a loop. -/
theorem Within.exists_onLoop (h : Within step n) (hi : ¬ Ends step i) :
    ∃ j, Leads step i j ∧ OnLoop step j :=
  (h.ends_or_onLoop n ∅ i (by simp) (by simp)).resolve_left hi

/-- Within a table without loops every chain ends. -/
theorem Within.ends_of_no_loop (h : Within step n) (hloop : ∀ j, ¬ OnLoop step j) :
    Ends step i := by
  by_contra hi
  obtain ⟨j, _, hj⟩ := h.exists_onLoop hi
  exact hloop j hj

/-- The classes of a loop have a last one in the order of the table. -/
theorem Within.exists_greatest (h : Within step n) (hi : OnLoop step i) :
    ∃ m, Leads step i m ∧ ∀ j, Leads step i j → j ≤ m := by
  have hbound : BddAbove {j | Leads step i j} := by
    refine ⟨n, fun j hj => ?_⟩
    obtain ⟨k, hk⟩ := (hi.of_leads hj).exists_step
    exact (h j k hk).1.le
  exact ⟨_, Nat.sSup_mem ⟨i, Relation.ReflTransGen.refl⟩ hbound, fun j hj => le_csSup hbound hj⟩

/-- The classes of a chain have a first one in the order of the table. -/
theorem exists_least (step : NodeId → Option NodeId) (i : NodeId) :
    ∃ m, Leads step i m ∧ ∀ j, Leads step i j → m ≤ j := by
  have hne : {j | Leads step i j}.Nonempty := ⟨i, Relation.ReflTransGen.refl⟩
  exact ⟨_, Nat.sInf_mem hne, fun j hj => Nat.sInf_le hj⟩

/-! ### The bounded searches -/

/-- `Links.ends` finds the chains that end within its fuel. -/
theorem ends_eq_true_iff (step : NodeId → Option NodeId) (fuel : Nat) :
    ∀ i, Links.ends step fuel i = true ↔ ∃ m, m < fuel ∧ Height step i m := by
  induction fuel with
  | zero => intro i; simp [Links.ends]
  | succ fuel ih =>
    intro i
    cases hstep : step i with
    | none =>
      simp only [Links.ends, hstep, true_iff]
      exact ⟨0, by omega, .top hstep⟩
    | some j =>
      simp only [Links.ends, hstep, ih j]
      constructor
      · rintro ⟨m, hm, hj⟩
        exact ⟨m + 1, by omega, .up hstep hj⟩
      · rintro ⟨m, hm, hi⟩
        obtain ⟨m', rfl, hj⟩ := hi.next hstep
        exact ⟨m', by omega, hj⟩

/-- `Links.ends` with fuel for the whole table finds exactly the chains that end. -/
theorem Within.ends_iff (h : Within step n) (hi : i < n) :
    Links.ends step n i = true ↔ Ends step i := by
  rw [ends_eq_true_iff]
  constructor
  · rintro ⟨m, _, hm⟩
    exact ⟨m, hm⟩
  · rintro ⟨m, hm⟩
    exact ⟨m, h.height_lt hi hm, hm⟩

/-- `Links.onChain` with fuel for a chain that ends finds exactly the classes on it. -/
theorem onChain_eq_true_iff (hm : Height step i m) {fuel : Nat} (hfuel : m < fuel) :
    Links.onChain step k fuel i = true ↔ Leads step i k := by
  induction hm generalizing fuel with
  | @top a htop =>
    obtain ⟨fuel, rfl⟩ : ∃ f, fuel = f + 1 := ⟨fuel - 1, by omega⟩
    simp only [Links.onChain, htop, Bool.or_false, beq_iff_eq]
    constructor
    · rintro rfl
      exact .refl
    · intro h
      rcases Relation.ReflTransGen.cases_head h with rfl | ⟨c, hc, _⟩
      · rfl
      · rw [htop] at hc; cases hc
  | @up a b m hab _ ih =>
    obtain ⟨fuel, rfl⟩ : ∃ f, fuel = f + 1 := ⟨fuel - 1, by omega⟩
    have hrest : m < fuel := by omega
    simp only [Links.onChain, hab, Bool.or_eq_true, beq_iff_eq, ih hrest]
    constructor
    · rintro (rfl | h)
      · exact .refl
      · exact .head hab h
    · intro h
      exact (h.eq_or_next hab).imp_left Eq.symm

/-- `Links.onChain` with fuel for the whole table finds exactly the classes on a chain that
ends. -/
theorem Within.onChain_iff (h : Within step n) (hi : i < n) (hend : Ends step i) :
    Links.onChain step k n i = true ↔ Leads step i k := by
  obtain ⟨m, hm⟩ := hend
  exact onChain_eq_true_iff hm (h.height_lt hi hm)

end Lineage.Chain
