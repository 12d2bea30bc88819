import Lineage.Census
import Lineage.Proofs.Depth

/-!
# What the census keeps

The census takes in one class after the other.  A visit to a class changes each field in its own
way (`count_eq`), and `Tally` says what the fields hold after any sequence of visits: numbers of
classes of each kind, the first class with the most lines (`Largest`), the greatest depth, and the
chains down to the deepest tips (`Longest`).  Every visit keeps this true (`Tally.step`).
-/

namespace Lineage

/-- Whether a class can end a longest chain of inheritance: no class is around it and none derives
from it. -/
def Node.isTip (n : Node) : Bool :=
  n.container.isNone && n.children.isEmpty

namespace Forest

/-- The number of lines of class `i`. -/
def linesOf (f : Forest) (i : NodeId) : Nat :=
  ((f.node? i).map (·.declaration.lines)).getD 0

/-- Whether class `i` is a tip. -/
def isTip (f : Forest) (i : NodeId) : Bool :=
  (f.node? i).any (·.isTip)

section Lookup

variable {f : Forest} {i : NodeId} {n : Node}

theorem linesOf_eq (hn : f.node? i = some n) : f.linesOf i = n.declaration.lines := by
  unfold linesOf
  rw [hn]
  rfl

theorem isTip_eq (hn : f.node? i = some n) : f.isTip i = n.isTip := by
  unfold isTip
  rw [hn]
  rfl

end Lookup

end Forest

namespace Census

open Forest

variable {f : Forest} {c : Census} {i : NodeId} {n : Node} {seen : List NodeId}

/-! ### What one class changes -/

/-- The larger of the largest class so far and class `i`. -/
def larger (f : Forest) (best : Option NodeId) (i : NodeId) (n : Node) : Option NodeId :=
  if (best.bind fun j => (f.node? j).map (·.declaration.lines)).all (· < n.declaration.lines)
  then some i else best

/-- The number of links of the first of some chains, 0 if there are none. -/
def chainLength : List (List NodeId) → Nat
  | [] => 0
  | chain :: _ => chain.length - 1

/-- The longest chains so far, with `path`, which has `depth` links. -/
def longer (chains : List (List NodeId)) (depth : Nat) (path : List NodeId) :
    List (List NodeId) :=
  if chains = [] ∨ chainLength chains < depth then [path]
  else if depth = chainLength chains then chains ++ [path]
  else chains

theorem countLines_eq (f : Forest) (c : Census) (i : NodeId) (n : Node) :
    countLines f c i n = { c with largest := larger f c.largest i n } := by
  unfold countLines larger
  dsimp only
  split <;> rfl

theorem countChain_eq (f : Forest) (c : Census) (i : NodeId) (n : Node) :
    countChain f c i n = { c with
      deepestChains := if n.children.isEmpty
        then longer c.deepestChains n.depth (f.inheritancePath i) else c.deepestChains } := by
  unfold countChain longer
  cases n.children.isEmpty with
  | false => rfl
  | true =>
    cases hchains : c.deepestChains with
    | nil => simp
    | cons chain rest =>
      have hlength : c.deepestChainLength = chainLength (chain :: rest) := by
        simp [deepestChainLength, hchains, chainLength]
      simp only [hlength]
      rcases Nat.lt_trichotomy n.depth (chainLength (chain :: rest)) with h | h | h
      · simp [h, h.not_gt, h.ne]
        rw [← hchains]
      · simp [h]
      · simp [h, h.not_gt, h.ne']

/-- Counting a class, field by field. -/
theorem count_eq (f : Forest) (c : Census) (i : NodeId) (n : Node) :
    count f c i n =
      { c.countModifier n.declaration.modifier with
        total := c.total + 1
        nested := if n.declaration.isNested then c.nested + 1 else c.nested
        largest := larger f c.largest i n
        maxDepth := if n.container.isSome then c.maxDepth else max c.maxDepth n.depth
        deep := if n.container.isNone ∧ deepLevel ≤ n.depth then c.deep ++ [i] else c.deep
        deepestChains := if n.isTip
          then longer c.deepestChains n.depth (f.inheritancePath i) else c.deepestChains } := by
  unfold count countDepth
  simp only [countLines_eq, countChain_eq]
  cases hmodifier : n.declaration.modifier <;> cases hcontainer : n.container <;>
    simp [countModifier, Node.isTip, hcontainer]

theorem countFor_count (f : Forest) (c : Census) (i : NodeId) (n : Node) (m : Modifier) :
    (count f c i n).countFor m =
      c.countFor m + if n.declaration.modifier == m then 1 else 0 := by
  rw [count_eq]
  cases n.declaration.modifier <;> cases m <;> rfl

/-! ### The largest class so far -/

/-- `best` is the first of the classes `seen` that has the most lines. -/
def Largest (f : Forest) (seen : List NodeId) (best : Option NodeId) : Prop :=
  seen = [] ∧ best = none ∨
    ∃ i before after, best = some i ∧ seen = before ++ i :: after ∧
      (∀ j ∈ before, f.linesOf j < f.linesOf i) ∧ ∀ j ∈ after, f.linesOf j ≤ f.linesOf i

/-- The first largest class stays, unless the new one is larger. -/
theorem Largest.larger {best : Option NodeId} (h : Largest f seen best)
    (hlt : ∀ j ∈ seen, j < f.size) (hn : f.node? i = some n) :
    Largest f (seen ++ [i]) (larger f best i n) := by
  unfold Census.larger
  rcases h with ⟨rfl, rfl⟩ | ⟨b, before, after, rfl, rfl, hbefore, hafter⟩
  · exact Or.inr ⟨i, [], [], rfl, rfl, by simp, by simp⟩
  · obtain ⟨m, hm⟩ := exists_node? (hlt b (by simp))
    rw [Option.bind_some, hm, Option.map_some, Option.all_some, ← linesOf_eq hn, ← linesOf_eq hm]
    split_ifs with hlarger
    · have hlarger : f.linesOf b < f.linesOf i := of_decide_eq_true hlarger
      refine Or.inr ⟨i, before ++ b :: after, [], rfl, rfl, fun j hj => ?_, by simp⟩
      rcases List.mem_append.1 hj with hj | hj
      · exact (hbefore j hj).trans hlarger
      · rcases List.mem_cons.1 hj with rfl | hj
        · exact hlarger
        · exact (hafter j hj).trans_lt hlarger
    · have hle : f.linesOf i ≤ f.linesOf b := by simpa using hlarger
      refine Or.inr ⟨b, before, after ++ [i], rfl, by simp, hbefore, fun j hj => ?_⟩
      rcases List.mem_append.1 hj with hj | hj
      · exact hafter j hj
      · rw [List.mem_singleton.1 hj]
        exact hle

/-- The first largest class is found by a search for a class that no class exceeds. -/
theorem Largest.eq_find? {best : Option NodeId} (h : Largest f seen best) :
    best = seen.find? fun i => seen.all fun j => decide (f.linesOf j ≤ f.linesOf i) := by
  rcases h with ⟨rfl, rfl⟩ | ⟨b, before, after, rfl, rfl, hbefore, hafter⟩
  · rfl
  · refine (List.find?_eq_some_iff_append.2 ⟨?_, before, after, rfl, fun j hj => ?_⟩).symm
    · rw [List.all_eq_true]
      intro j hj
      rw [decide_eq_true_iff]
      rcases List.mem_append.1 hj with hj | hj
      · exact (hbefore j hj).le
      · rcases List.mem_cons.1 hj with rfl | hj
        · exact le_rfl
        · exact hafter j hj
    · rw [Bool.not_eq_true', List.all_eq_false]
      refine ⟨b, by simp, ?_⟩
      rw [decide_eq_true_iff, not_le]
      exact hbefore j hj

/-! ### The longest chains so far -/

/-- `chains` are the chains down to the deepest tips among the classes `seen`. -/
structure Longest (f : Forest) (seen : List NodeId) (chains : List (List NodeId)) : Prop where
  le : ∀ j ∈ seen, f.isTip j = true → f.depthOf j ≤ chainLength chains
  eq : chains = (seen.filter fun j =>
    f.isTip j && f.depthOf j == chainLength chains).map f.inheritancePath

theorem chainLength_append {chains : List (List NodeId)} (h : chains ≠ [])
    (more : List (List NodeId)) : chainLength (chains ++ more) = chainLength chains := by
  cases chains with
  | nil => exact absurd rfl h
  | cons chain rest => rfl

namespace Longest

variable {chains : List (List NodeId)}

/-- Where there is no chain there is no tip. -/
theorem isTip_eq_false (h : Longest f seen chains) (hchains : chains = []) {j : NodeId}
    (hj : j ∈ seen) : f.isTip j = false := by
  subst hchains
  rw [Bool.eq_false_iff]
  intro htip
  have hle := h.le j hj htip
  have hnone := List.filter_eq_nil_iff.1 (List.map_eq_nil_iff.1 h.eq.symm) j hj
  exact hnone (by simpa [htip, chainLength] using hle)

/-- If there is a tip, some tip is at the end of a longest chain. -/
theorem exists_tip (h : Longest f seen chains) {j : NodeId} (hj : j ∈ seen)
    (htip : f.isTip j = true) :
    ∃ k ∈ seen, f.isTip k = true ∧ f.depthOf k = chainLength chains := by
  have hne : chains ≠ [] := by
    intro hchains
    rw [h.isTip_eq_false hchains hj] at htip
    cases htip
  rw [h.eq, ne_eq, List.map_eq_nil_iff] at hne
  obtain ⟨k, hk⟩ := List.exists_mem_of_ne_nil _ hne
  rw [List.mem_filter, Bool.and_eq_true, beq_iff_eq] at hk
  exact ⟨k, hk⟩

/-- A class that is no tip changes nothing. -/
theorem skip (h : Longest f seen chains) (htip : f.isTip i = false) :
    Longest f (seen ++ [i]) chains := by
  refine ⟨List.forall_mem_append.2 ⟨h.le, List.forall_mem_singleton.2 ?_⟩, ?_⟩
  · rw [htip]
    exact fun hfalse => absurd hfalse Bool.false_ne_true
  · rw [List.filter_append, List.map_append, ← h.eq]
    simp [htip]

/-- The longest chains stay, unless the new one is longer. -/
theorem longer (h : Longest f seen chains) (htip : f.isTip i = true)
    (hlength : (f.inheritancePath i).length = f.depthOf i + 1) :
    Longest f (seen ++ [i]) (longer chains (f.depthOf i) (f.inheritancePath i)) := by
  unfold Census.longer
  split_ifs with hshort heq
  · have hnew : chainLength [f.inheritancePath i] = f.depthOf i := by
      simp [chainLength, hlength]
    -- every tip seen before is less deep, so none of the old chains stays
    have hless : ∀ j ∈ seen, f.isTip j = true → f.depthOf j < f.depthOf i := by
      intro j hj hjtip
      rcases hshort with hnil | hshort
      · rw [h.isTip_eq_false hnil hj] at hjtip
        cases hjtip
      · exact (h.le j hj hjtip).trans_lt hshort
    have hnone : (seen.filter fun j => f.isTip j && f.depthOf j == f.depthOf i) = [] := by
      rw [List.filter_eq_nil_iff]
      intro j hj hmem
      rw [Bool.and_eq_true, beq_iff_eq] at hmem
      exact (hless j hj hmem.1).ne hmem.2
    refine ⟨List.forall_mem_append.2 ⟨fun j hj hjtip => ?_, List.forall_mem_singleton.2 ?_⟩, ?_⟩
    · rw [hnew]
      exact (hless j hj hjtip).le
    · exact fun _ => hnew.ge
    · rw [hnew, List.filter_append, hnone]
      simp [htip]
  · have hsame := chainLength_append (fun hnil => hshort (Or.inl hnil)) [f.inheritancePath i]
    refine ⟨List.forall_mem_append.2 ⟨?_, List.forall_mem_singleton.2 ?_⟩, ?_⟩
    · rw [hsame]
      exact h.le
    · rw [hsame]
      exact fun _ => heq.le
    · rw [hsame, List.filter_append, List.map_append, ← h.eq]
      simp [htip, heq]
  · have hlt : f.depthOf i < chainLength chains := by
      rw [not_or, not_lt] at hshort
      omega
    refine ⟨List.forall_mem_append.2 ⟨h.le, List.forall_mem_singleton.2 fun _ => hlt.le⟩, ?_⟩
    rw [List.filter_append, List.map_append, ← h.eq]
    simp [hlt.ne]

end Longest

/-! ### What every visit keeps true -/

/-- The census after visits to the classes `seen`. -/
structure Tally (f : Forest) (seen : List NodeId) (c : Census) : Prop where
  lt : ∀ i ∈ seen, i < f.size
  total : c.total = seen.length
  nested : c.nested = seen.countP fun i => (f.node? i).any (·.declaration.isNested)
  modifier : ∀ m, c.countFor m =
    seen.countP fun i => (f.node? i).any (·.declaration.modifier == m)
  largest : Largest f seen c.largest
  depth_le : ∀ i ∈ seen, f.depthOf i ≤ c.maxDepth
  depth_mem : c.maxDepth = 0 ∨ ∃ i ∈ seen, f.depthOf i = c.maxDepth
  deep : c.deep = seen.filter fun i => deepLevel ≤ f.depthOf i
  longest : Longest f seen c.deepestChains

theorem tally_nil (f : Forest) : Tally f [] {} where
  lt := by simp
  total := rfl
  nested := rfl
  modifier := by intro m; cases m <;> rfl
  largest := Or.inl ⟨rfl, rfl⟩
  depth_le := by simp
  depth_mem := Or.inl rfl
  deep := rfl
  longest := ⟨by simp, rfl⟩

section Step

variable (hn : f.node? i = some n) (hcontained : n.container.isSome → f.depthOf i = 0)

include hn hcontained

/-- A class inside another one has depth 0, so leaving it out does not change the greatest
depth. -/
theorem maxDepth_count : (count f c i n).maxDepth = max c.maxDepth (f.depthOf i) := by
  rw [count_eq, depthOf_eq hn]
  dsimp only
  split_ifs with hsome
  · rw [← depthOf_eq hn, hcontained hsome, Nat.max_zero]
  · rfl

theorem deep_count :
    (count f c i n).deep = if deepLevel ≤ f.depthOf i then c.deep ++ [i] else c.deep := by
  rw [count_eq, depthOf_eq hn]
  refine if_congr (and_iff_right_of_imp fun hle => ?_) rfl rfl
  rw [Option.isNone_iff_eq_none, ← Option.not_isSome_iff_eq_none]
  intro hsome
  rw [← depthOf_eq hn, hcontained hsome] at hle
  exact absurd hle (by decide)

/-- Visiting one more class. -/
theorem Tally.step (h : Tally f seen c)
    (hlength : (f.inheritancePath i).length = f.depthOf i + 1) :
    Tally f (seen ++ [i]) (count f c i n) where
  lt := List.forall_mem_append.2 ⟨h.lt, List.forall_mem_singleton.2 (lt_size_of_node? hn)⟩
  total := by
    rw [count_eq, List.length_append, ← h.total]
    rfl
  nested := by
    rw [count_eq, List.countP_append, ← h.nested, List.countP_singleton, hn]
    dsimp only [Option.any_some]
    split_ifs <;> rfl
  modifier := by
    intro m
    rw [countFor_count, List.countP_append, ← h.modifier m, List.countP_singleton, hn]
    rfl
  largest := by
    rw [count_eq]
    exact h.largest.larger h.lt hn
  depth_le := by
    rw [maxDepth_count hn hcontained, List.forall_mem_append, List.forall_mem_singleton]
    exact ⟨fun j hj => (h.depth_le j hj).trans (Nat.le_max_left ..), Nat.le_max_right ..⟩
  depth_mem := by
    rw [maxDepth_count hn hcontained]
    rcases Nat.le_total (f.depthOf i) c.maxDepth with hle | hle
    · rw [Nat.max_eq_left hle]
      refine h.depth_mem.imp_right fun ⟨j, hj, hjdepth⟩ => ?_
      exact ⟨j, List.mem_append_left _ hj, hjdepth⟩
    · rw [Nat.max_eq_right hle]
      exact Or.inr ⟨i, by simp, rfl⟩
  deep := by
    rw [deep_count hn hcontained, List.filter_append, ← h.deep]
    split_ifs with hle <;> simp [hle]
  longest := by
    rw [count_eq]
    dsimp only
    split_ifs with htip
    · rw [← depthOf_eq hn]
      exact h.longest.longer ((isTip_eq hn).trans htip) hlength
    · exact h.longest.skip ((isTip_eq hn).trans (Bool.eq_false_iff.2 htip))

end Step

end Census

end Lineage
