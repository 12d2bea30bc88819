import Lineage.Proofs.Targets

/-!
# Linking, turn by turn

Classes are linked to their bases one after another, and before each link a search goes up from the
base, to see whether the class stands there already.  The search is broken off after as many steps
as the table has classes, and it counts as a hit then.

It is never broken off.  Whatever the order of the table, the links made so far have no loop
(`Links.Inherited.not_onLoop`), so the chain that is searched is a finite list of classes, not
longer than the table (`Links.Inherited.exists_upward`).  A search that is given this many steps
finds the class or comes to the end of the list (`Chain.Upward.search_eq`).  So a link is refused
exactly if the class is on the list, and the class is left without a parent for no other reason.

The main statement is `Forest.guarded_linking`.
-/

namespace Lineage.Links

/-- How the search for a class on a chain comes to an end. -/
inductive Verdict
  /-- It comes to the class. -/
  | found
  /-- It comes to the end of the chain. -/
  | ended
  /-- It is broken off after the steps it was given. -/
  | capped
  deriving DecidableEq, Repr

/-- Whether a search counts as a hit. -/
def Verdict.isHit : Verdict → Bool
  | found => true
  | ended => false
  | capped => true

/-- The search of `onChain`, with the reason for its answer. -/
def search (step : NodeId → Option NodeId) (target : NodeId) : Nat → NodeId → Verdict
  | 0, _ => .capped
  | fuel + 1, node =>
    if node = target then .found
    else
      match step node with
      | none => .ended
      | some next => search step target fuel next

/-- The answer of `onChain` is the one of its search. -/
theorem onChain_eq_isHit (step : NodeId → Option NodeId) (target : NodeId) (fuel : Nat) :
    ∀ node, onChain step target fuel node = (search step target fuel node).isHit := by
  induction fuel with
  | zero => exact fun _ => rfl
  | succ fuel ih =>
    intro node
    unfold onChain search
    by_cases hnode : node = target
    · rw [if_pos hnode, beq_iff_eq.2 hnode]
      rfl
    · rw [if_neg hnode, beq_eq_false_iff_ne.2 hnode, Bool.false_or]
      cases step node with
      | none => rfl
      | some next => exact ih next

/-- The links when the first `k` classes have had their turn. -/
def afterTurns (t : Table) (k : Nat) : Links :=
  (List.range k).foldl (inherit t) (nesting t)

/-- In its turn class `k` names a base and has no container, so that the search is made. -/
structure Asks (t : Table) (k base : NodeId) : Prop where
  lt : k < t.size
  container : (afterTurns t k).container? k = none
  base : t.baseOf k = some base

end Lineage.Links

namespace Lineage.Chain

variable {step : NodeId → Option NodeId} {i j k : NodeId} {n : Nat} {path : List NodeId}

/-- The list is the whole chain of `step` from a class, the class first, up to one without a
step. -/
inductive Upward (step : NodeId → Option NodeId) : NodeId → List NodeId → Prop
  | top {i : NodeId} (h : step i = none) : Upward step i [i]
  | up {i j : NodeId} {path : List NodeId} (h : step i = some j) (above : Upward step j path) :
    Upward step i (i :: path)

/-- A chain that ends can be written down. -/
theorem Height.exists_upward (h : Height step i n) :
    ∃ path, Upward step i path ∧ path.length = n + 1 := by
  induction h with
  | @top i htop => exact ⟨[i], .top htop, rfl⟩
  | @up i j n hij _ ih =>
    obtain ⟨path, hpath, hlen⟩ := ih
    exact ⟨i :: path, .up hij hpath, by rw [List.length_cons, hlen]⟩

namespace Upward

/-- There is one way only to write it down. -/
theorem unique {other : List NodeId} (h : Upward step i path) (h' : Upward step i other) :
    path = other := by
  induction h generalizing other with
  | top htop =>
    cases h' with
    | top => rfl
    | up hij => rw [htop] at hij; cases hij
  | up hij _ ih =>
    cases h' with
    | top htop => rw [htop] at hij; cases hij
    | up hij' above =>
      obtain rfl := Option.some.inj (hij.symm.trans hij')
      rw [ih above]

/-- The classes on the list are those that the chain comes past. -/
theorem mem_iff_leads (h : Upward step i path) : j ∈ path ↔ Leads step i j := by
  induction h with
  | @top i htop =>
    rw [List.mem_singleton]
    constructor
    · rintro rfl
      exact .refl
    · intro hij
      rcases Relation.ReflTransGen.cases_head hij with rfl | ⟨c, hic, _⟩
      · rfl
      · rw [htop] at hic; cases hic
  | @up i next path hnext _ ih =>
    rw [List.mem_cons, ih]
    constructor
    · rintro (rfl | hj)
      · exact .refl
      · exact .head hnext hj
    · exact fun hij => hij.eq_or_next hnext

/-- With a step for each class of the chain, a search is not broken off. -/
theorem search_eq (h : Upward step i path) {cap : Nat} (hcap : path.length ≤ cap) :
    Links.search step k cap i = if k ∈ path then .found else .ended := by
  induction h generalizing cap with
  | @top i htop =>
    rw [List.length_singleton] at hcap
    obtain ⟨cap, rfl⟩ : ∃ c, cap = c + 1 := ⟨cap - 1, by omega⟩
    simp only [Links.search, htop, List.mem_singleton, eq_comm]
  | @up i j path hij _ ih =>
    rw [List.length_cons] at hcap
    obtain ⟨cap, rfl⟩ : ∃ c, cap = c + 1 := ⟨cap - 1, by omega⟩
    -- one step is spent on `i`, and the rest of the chain is one class shorter
    have hrest := ih (show path.length ≤ cap by omega)
    unfold Links.search
    by_cases hik : i = k
    · rw [if_pos hik, if_pos (by rw [hik]; exact List.mem_cons_self ..)]
    · have hmem : k ∈ i :: path ↔ k ∈ path := by
        rw [List.mem_cons]
        exact or_iff_right (Ne.symm hik)
      simp only [if_neg hik, hij, hrest, hmem]

end Upward

end Lineage.Chain

namespace Lineage.Links

open Chain

variable {t : Table} {l : Links} {i k base : NodeId} {path : List NodeId}

/-! ### One turn -/

theorem afterTurns_succ (t : Table) (k : Nat) :
    afterTurns t (k + 1) = inherit t (afterTurns t k) k := by
  unfold afterTurns
  rw [List.range_succ, List.foldl_append]
  rfl

/-- The turns so far have linked the classes that are not to be refused. -/
theorem inherited_afterTurns (hk : k ≤ t.size) : Inherited t k (afterTurns t k) :=
  foldl_range_induction _ (Inherited t) _ k (inherited_nesting t)
    fun _ _ hj h => h.step (hj.trans_le hk)

/-- The chain above any class of the table is a list not longer than the table. -/
theorem Inherited.exists_upward (h : Inherited t k l) (hi : i < t.size) :
    ∃ path, Upward l.parent? i path ∧ path.length ≤ t.size := by
  obtain ⟨n, hn⟩ := h.ends (i := i)
  obtain ⟨path, hpath, hlen⟩ := hn.exists_upward
  have hlt : n < t.size := h.within.height_lt hi hn
  exact ⟨path, hpath, by omega⟩

/-- A turn without a search leaves the links as they are. -/
theorem afterTurns_succ_of_not_asks (hk : k < t.size) (h : ∀ base, ¬ Asks t k base) :
    afterTurns t (k + 1) = afterTurns t k := by
  rw [afterTurns_succ]
  unfold inherit
  cases hc : (afterTurns t k).container? k with
  | some c => rfl
  | none =>
    cases hb : t.baseOf k with
    | none => rfl
    | some base => exact absurd ⟨hk, hc, hb⟩ (h base)

namespace Asks

theorem inherited (h : Asks t k base) : Inherited t k (afterTurns t k) :=
  inherited_afterTurns h.lt.le

theorem heir?_eq (h : Asks t k base) : t.heir? k = some base := by
  have hc : t.containerOf k = none := by
    rw [← h.inherited.container k]
    exact h.container
  rw [Table.heir?_of_containerOf_none hc]
  exact h.base

theorem base_lt (h : Asks t k base) : base < t.size :=
  (Table.within_target? t k base (Table.narrows_heir? t k base h.heir?_eq)).2

/-- The class stands on the chain of its base exactly if it is the last one of a loop to have its
turn. -/
theorem mem_iff_refused (h : Asks t k base) (hpath : Upward (afterTurns t k).parent? base path) :
    k ∈ path ↔ Refused t k := by
  rw [hpath.mem_iff_leads]
  exact h.inherited.leads_base_iff h.heir?_eq

/-- What a turn with a search does to the links. -/
theorem afterTurns_succ (h : Asks t k base) :
    afterTurns t (k + 1) =
      if onChain (afterTurns t k).parent? k t.size base then afterTurns t k
      else { afterTurns t k with
        parents := (afterTurns t k).parents.setIfInBounds k (some base) } := by
  rw [Links.afterTurns_succ]
  unfold inherit
  rw [h.container, h.base]

/-- A turn links its class, unless the search is a hit, and touches no other class. -/
theorem parent?_succ (h : Asks t k base)
    (hanswer : onChain (afterTurns t k).parent? k t.size base = true ↔ k ∈ path) (i : NodeId) :
    (afterTurns t (k + 1)).parent? i =
      if i = k ∧ k ∉ path then some base else (afterTurns t k).parent? i := by
  have hsize : k < (afterTurns t k).parents.size := by
    rw [h.inherited.size]
    exact h.lt
  rw [h.afterTurns_succ]
  by_cases hk : k ∈ path
  · rw [if_pos (hanswer.2 hk), if_neg fun hi => hi.2 hk]
  · rw [if_neg (mt hanswer.1 hk), parent?_set_some hsize]
    simp only [hk, not_false_eq_true, and_true]

/-- Later turns leave the link of a class alone. -/
theorem parent?_inheritance (h : Asks t k base)
    (hpath : Upward (afterTurns t k).parent? base path) :
    (inheritance t).parent? k = if k ∈ path then none else some base := by
  ext p
  rw [parent?_inheritance_eq_some_iff, ← h.mem_iff_refused hpath, h.heir?_eq]
  split_ifs with hk <;> simp [hk]

end Asks

end Lineage.Links

namespace Lineage.Forest

open Chain Links

/-- The turn of class `k`, which has `base` for a base, when `path` is the chain above `base` at
that moment. -/
structure Answered (ds : List Declaration) (k base : NodeId) (path : List NodeId) : Prop where
  /-- The chain goes from the base up to a class without a parent. -/
  upward : Upward (afterTurns (Table.ofList ds) k).parent? base path
  /-- It has at most as many classes as the search may look at. -/
  length_le : path.length ≤ (Table.ofList ds).size
  /-- The search ends because it comes to the class or to the end of the chain. -/
  verdict : search (afterTurns (Table.ofList ds) k).parent? k (Table.ofList ds).size base =
    if k ∈ path then .found else .ended
  /-- The answer says whether the class is on the chain. -/
  answer : onChain (afterTurns (Table.ofList ds) k).parent? k (Table.ofList ds).size base = true ↔
    k ∈ path
  /-- The turn makes the base the parent of the class, unless the class is on the chain, and it
  leaves all other parents as they are. -/
  turn : ∀ i, (afterTurns (Table.ofList ds) (k + 1)).parent? i =
    if i = k ∧ k ∉ path then some base else (afterTurns (Table.ofList ds) k).parent? i
  /-- The class has that parent, or none, when all classes have had their turn. -/
  parent : (inheritance (Table.ofList ds)).parent? k = if k ∈ path then none else some base
  /-- A class that was refused is a root of the forest. -/
  root : k ∈ path → k ∈ (build ds).roots

/-- What the searches are asked and answer while the classes of `ds` are linked. -/
structure Guarded (ds : List Declaration) : Prop where
  /-- At the start and after each turn, no chain of parents comes back to a class. -/
  acyclic : ∀ k ≤ (Table.ofList ds).size, ∀ i, ¬ OnLoop (afterTurns (Table.ofList ds) k).parent? i
  /-- Each search is about one finite chain, which decides its answer. -/
  asked : ∀ k base, Asks (Table.ofList ds) k base → ∃! path, Answered ds k base path
  /-- A turn without a search changes nothing. -/
  unasked : ∀ k < (Table.ofList ds).size, (∀ base, ¬ Asks (Table.ofList ds) k base) →
    afterTurns (Table.ofList ds) (k + 1) = afterTurns (Table.ofList ds) k

/-- The turn of a class that names a base and has no container. -/
theorem exists_answered {ds : List Declaration} {k base : NodeId}
    (h : Asks (Table.ofList ds) k base) : ∃ path, Answered ds k base path := by
  obtain ⟨path, hpath, hlen⟩ := h.inherited.exists_upward h.base_lt
  -- the search may look at as many classes as the table has, and the chain has no more
  have hverdict := hpath.search_eq (k := k) hlen
  have hanswer : onChain (afterTurns (Table.ofList ds) k).parent? k (Table.ofList ds).size base =
      true ↔ k ∈ path := by
    rw [onChain_eq_isHit, hverdict]
    split_ifs with hk <;> simp [Verdict.isHit, hk]
  refine ⟨path, hpath, hlen, hverdict, hanswer, h.parent?_succ hanswer,
    h.parent?_inheritance hpath, fun hk => ?_⟩
  -- cutting loose gives a refused class no link, so it is still without one in the forest
  have hrefused : Refused (Table.ofList ds) k := (h.mem_iff_refused hpath).1 hk
  rw [mem_roots_build_iff, size_build]
  exact ⟨h.lt, Or.inl (Or.inl hrefused)⟩

/-- **The search for a loop is never broken off.**  For every list of declarations and in every
turn, the search comes to the class or to the end of a finite chain; only a class that is on the
chain above its own base is left without a parent; and the parents never form a loop. -/
theorem guarded_linking (ds : List Declaration) : Guarded ds where
  acyclic k hk _ := (inherited_afterTurns hk).not_onLoop
  asked k base h := by
    obtain ⟨path, hpath⟩ := exists_answered h
    exact ⟨path, hpath, fun other hother => hother.upward.unique hpath.upward⟩
  unasked _ hk h := afterTurns_succ_of_not_asks hk h

/-- Three classes in a ring, each derived from the next one. -/
def threeInRing : List Declaration :=
  [{ name := "A", base := some "B", file := "A.cs" },
   { name := "B", base := some "C", file := "B.cs" },
   { name := "C", base := some "A", file := "C.cs" }]

/-- The last class of the ring is looked for on a chain through the whole table, and found as the
last class of it. -/
theorem guarded_linking_threeInRing :
    Asks (Table.ofList threeInRing) 2 0 ∧ Answered threeInRing 2 0 [0, 1, 2] ∧
      (Table.ofList threeInRing).size = 3 ∧ 2 ∈ (build threeInRing).roots := by
  have hsize : (Table.ofList threeInRing).size = 3 := by decide +kernel
  have h0 : (afterTurns (Table.ofList threeInRing) 2).parent? 0 = some 1 := by decide +kernel
  have h1 : (afterTurns (Table.ofList threeInRing) 2).parent? 1 = some 2 := by decide +kernel
  have h2 : (afterTurns (Table.ofList threeInRing) 2).parent? 2 = none := by decide +kernel
  have hasks : Asks (Table.ofList threeInRing) 2 0 := ⟨by rw [hsize]; decide, by decide +kernel, by decide +kernel⟩
  obtain ⟨path, hpath, _⟩ := (guarded_linking threeInRing).asked 2 0 hasks
  obtain rfl := hpath.upward.unique (.up h0 (.up h1 (.top h2)))
  exact ⟨hasks, hpath, hsize, hpath.root (by decide)⟩

end Lineage.Forest
