import Lineage.Proofs.ByteOrder
import Lineage.Proofs.Forest
import Mathlib.Data.Prod.Lex
import Mathlib.Logic.Function.Basic

/-!
# The order of siblings

The lists of a forest are sorted by name, and the sorting is stable (`filter_sortByName`), so where
the lists were in the order of the table before, they are sorted by name and place afterwards
(`pairwise_sortByName`).

That they were in this order depends on how they came about.  While classes are linked and cut
loose, each class can be entered in the list of the class it is linked to, and struck from it when
it is cut loose.  Such a `Filing` has the links of the passes over the table, and its lists are those
of its links, in the order of the table (`Filing.agrees_ofTable`): a class is entered after all
classes before it in the table, and striking keeps the order.

The main statement is `Forest.inOrder_build`.
-/

namespace Lineage

/-! ### Lists that are kept along with the links -/

/-- Links, and the lists that are kept along with them: below each class the classes that derive
from it and those inside it, and the roots.  In each list the classes are in the order in which
they were entered. -/
structure Filing where
  links : Links
  children : NodeId → List NodeId := fun _ => []
  nested : NodeId → List NodeId := fun _ => []
  roots : List NodeId := []

namespace Filing

/-- Enters class `i` at the end of the list of class `p`, if there is one. -/
def enter (lists : NodeId → List NodeId) (p : Option NodeId) (i : NodeId) :
    NodeId → List NodeId :=
  match p with
  | some p => Function.update lists p (lists p ++ [i])
  | none => lists

/-- Strikes class `i` from the list of class `p`, if there is one. -/
def strike (lists : NodeId → List NodeId) (p : Option NodeId) (i : NodeId) :
    NodeId → List NodeId :=
  match p with
  | some p => Function.update lists p ((lists p).filter (· != i))
  | none => lists

/-- Enters class `i` in the list of its container, if that is known. -/
def nest (t : Table) (s : Filing) (i : NodeId) : Filing :=
  { s with nested := enter s.nested (t.containerOf i) i }

/-- Links class `i` to its base where that is possible, and enters it in the list of the base.  A
class that hangs below no class after that is entered among the roots. -/
def inherit (t : Table) (s : Filing) (i : NodeId) : Filing :=
  let linked := Links.inherit t s.links i
  { links := linked
    children := enter s.children (linked.parent? i) i
    nested := s.nested
    roots := if linked.above? i = none then s.roots ++ [i] else s.roots }

/-- Cuts class `i` loose if no root is above it: strikes it from the list it is in and enters it
among the roots. -/
def release (size : Nat) (s : Filing) (i : NodeId) : Filing :=
  if Links.ends s.links.above? size i then s
  else
    { links := ⟨s.links.parents.setIfInBounds i none, s.links.containers.setIfInBounds i none⟩
      children := strike s.children (s.links.parent? i) i
      nested := strike s.nested (s.links.container? i) i
      roots := s.roots ++ [i] }

/-- The lists when every class has been entered in the list of its container. -/
def nesting (t : Table) : Filing :=
  (List.range t.size).foldl (nest t) { links := Links.nesting t }

/-- The lists when every class has been linked to its base where that is possible. -/
def inheritance (t : Table) : Filing :=
  (List.range t.size).foldl (inherit t) (nesting t)

/-- The lists that linking and breaking loops leave behind. -/
def ofTable (t : Table) : Filing :=
  (List.range t.size).foldl (release t.size) (inheritance t)

variable {s : Filing} {t : Table} {lists : NodeId → List NodeId}
  {above after : NodeId → Option NodeId} {i k p : NodeId} {n : Nat}

/-! ### Entering and striking -/

/-- Entering class `k` behind the classes before it in the table keeps the order of the table. -/
theorem enter_filter_range
    (hlists : ∀ p, lists p = (List.range k).filter fun j => above j == some p)
    (hbefore : ∀ j < k, after j = above j) (p : NodeId) :
    enter lists (after k) k p = (List.range (k + 1)).filter fun j => after j == some p := by
  have hsucc : (List.range (k + 1)).filter (fun j => after j == some p) =
      lists p ++ if after k = some p then [k] else [] := by
    rw [List.range_succ, List.filter_append, List.filter_cons, List.filter_nil, hlists p]
    simp only [beq_iff_eq]
    refine congrArg (· ++ _) (List.filter_congr fun j hj => ?_)
    rw [hbefore j (List.mem_range.1 hj)]
  rw [hsucc]
  unfold enter
  cases hk : after k with
  | none => simp
  | some q =>
    by_cases hpq : p = q
    · subst hpq
      rw [if_pos rfl]
      exact Function.update_self p _ lists
    · rw [if_neg (by simpa using Ne.symm hpq), List.append_nil]
      exact Function.update_of_ne hpq _ lists

/-- Striking class `k` leaves the other classes that hang below a class as they are. -/
theorem strike_hangingBelow (hlists : ∀ p, lists p = Forest.hangingBelow n above p)
    (hcut : ∀ i, after i = if i = k then none else above i) (p : NodeId) :
    strike lists (above k) k p = Forest.hangingBelow n after p := by
  have hfilter : Forest.hangingBelow n after p = (lists p).filter (· != k) := by
    rw [hlists p]
    unfold Forest.hangingBelow
    rw [List.filter_filter]
    refine List.filter_congr fun j _ => ?_
    rw [hcut j]
    by_cases hjk : j = k <;> simp [hjk]
  rw [hfilter]
  -- a list without `k` is as it was
  have hother : above k ≠ some p → (lists p).filter (· != k) = lists p := by
    intro hne
    rw [List.filter_eq_self]
    intro j hj
    rw [hlists p] at hj
    refine bne_iff_ne.2 ?_
    rintro rfl
    exact hne (Forest.mem_hangingBelow.1 hj).2
  unfold strike
  cases hk : above k with
  | none => exact (hother (by rw [hk]; simp)).symm
  | some q =>
    by_cases hpq : p = q
    · subst hpq
      exact Function.update_self p _ lists
    · rw [hother (by rw [hk]; simpa using Ne.symm hpq)]
      exact Function.update_of_ne hpq _ lists

/-! ### The lists after each pass -/

/-- After the first pass the lists of nested classes are filled. -/
theorem nesting_eq (t : Table) :
    nesting t = { links := Links.nesting t, nested := Forest.hangingBelow t.size t.containerOf } := by
  let filled (k : Nat) : Filing :=
    { links := Links.nesting t
      nested := fun c => (List.range k).filter fun j => t.containerOf j == some c }
  unfold nesting
  refine Links.foldl_range_induction _ (fun k s => s = filled k) _ t.size rfl ?_
  rintro k s _ rfl
  refine congrArg (Filing.mk _ _ · _) (funext fun c => ?_)
  exact enter_filter_range (fun _ => rfl) (fun _ _ => rfl) c

/-- The lists when the first `k` classes have been linked to their bases. -/
structure Inherited (t : Table) (k : Nat) (s : Filing) : Prop where
  links : Links.Inherited t k s.links
  children : ∀ p, s.children p = (List.range k).filter fun j => s.links.parent? j == some p
  nested : ∀ c, s.nested c = Forest.hangingBelow t.size t.containerOf c
  roots : s.roots = (List.range k).filter fun j => (s.links.above? j).isNone

/-- Linking one more class leaves the links of the classes before it as they are. -/
theorem Inherited.step (h : Inherited t k s) (hk : k < t.size) :
    Inherited t (k + 1) (inherit t s k) := by
  have hlinks := h.links.step hk
  have hparent : ∀ j < k, (Links.inherit t s.links k).parent? j = s.links.parent? j := by
    intro j hj
    refine Option.ext fun p => ?_
    rw [hlinks.parent, h.links.parent]
    simp only [hj, Nat.lt_succ_of_lt hj]
  have habove : ∀ j < k, (Links.inherit t s.links k).above? j = s.links.above? j := by
    intro j hj
    unfold Links.above?
    rw [hparent j hj, hlinks.container, h.links.container]
  refine ⟨hlinks, enter_filter_range h.children hparent, h.nested, ?_⟩
  show (if (Links.inherit t s.links k).above? k = none then s.roots ++ [k] else s.roots) =
    (List.range (k + 1)).filter fun j => ((Links.inherit t s.links k).above? j).isNone
  have hbefore : (List.range k).filter (fun j => ((Links.inherit t s.links k).above? j).isNone) =
      s.roots := by
    rw [h.roots]
    refine List.filter_congr fun j hj => ?_
    rw [habove j (List.mem_range.1 hj)]
  rw [List.range_succ, List.filter_append, hbefore, List.filter_cons, List.filter_nil]
  simp only [Option.isNone_iff_eq_none]
  split_ifs <;> simp

/-- The lists after all classes have been linked to their bases. -/
theorem inherited_inheritance (t : Table) : Inherited t t.size (inheritance t) := by
  unfold inheritance
  refine Links.foldl_range_induction _ (Inherited t) _ t.size ?_ fun k s hk h => h.step hk
  rw [nesting_eq]
  exact ⟨Links.inherited_nesting t, fun _ => rfl, fun _ => rfl, rfl⟩

/-- The lists have the links of a state of the pass that breaks loops: below each class stand those
linked to it, in the order of the table, and among the roots first those that never had a link, then
those cut loose. -/
structure Agrees (t : Table) (state : Links × List NodeId) (s : Filing) : Prop where
  links : s.links = state.1
  children : ∀ p, s.children p = Forest.hangingBelow t.size state.1.parent? p
  nested : ∀ c, s.nested c = Forest.hangingBelow t.size state.1.container? c
  roots : s.roots =
    (List.range t.size).filter (fun j => ((Links.inheritance t).above? j).isNone) ++ state.2

theorem Agrees.step {state : Links × List NodeId} (h : Agrees t state s) (k : NodeId) :
    Agrees t (Links.release t.size state k) (release t.size s k) := by
  obtain ⟨l, released⟩ := state
  obtain ⟨rfl, hchildren, hnested, hroots⟩ := h
  unfold release Links.release
  dsimp only
  split_ifs with hends
  · exact ⟨rfl, hchildren, hnested, hroots⟩
  · refine ⟨rfl, ?_, ?_, ?_⟩
    · exact strike_hangingBelow hchildren fun i => Links.join_set_none s.links.parents
    · exact strike_hangingBelow hnested fun i => Links.join_set_none s.links.containers
    · dsimp only
      rw [hroots, List.append_assoc]

/-- **The lists agree with the links** when all loops are broken. -/
theorem agrees_ofTable (t : Table) : Agrees t (Links.resolve t) (ofTable t) := by
  have hlinks : (inheritance t).links = Links.inheritance t := by
    have hnesting : (nesting t).links = Links.nesting t := by
      rw [nesting_eq]
    unfold inheritance Links.inheritance
    rw [← hnesting]
    exact (List.foldl_hom Filing.links fun _ _ => rfl).symm
  have hinherited := inherited_inheritance t
  unfold ofTable Links.resolve
  refine List.foldl_rel ?_ fun k _ s state h => h.step k
  refine ⟨hlinks, fun p => ?_, fun c => ?_, ?_⟩
  · rw [← hlinks]
    exact hinherited.children p
  · rw [hinherited.nested c]
    congr 1
    funext j
    exact Links.container?_inheritance.symm
  · rw [hinherited.roots, hlinks, List.append_nil]

end Filing

/-! ### Sorting -/

namespace Forest

open Text

variable {f : Forest} {t : Table} {ds : List Declaration} {ids : List NodeId} {i j : NodeId}

/-- **Sorting is stable**: the classes of one name keep their order. -/
theorem filter_sortByName (t : Table) (ids : List NodeId) (name : String) :
    (sortByName t ids).filter (fun i => nameAt t i == name) =
      ids.filter fun i => nameAt t i == name := by
  set same : NodeId → Bool := fun i => nameAt t i == name
  have hname : ∀ i ∈ ids.filter same, nameAt t i = name := fun i hi =>
    beq_iff_eq.1 (List.mem_filter.1 hi).2
  -- the classes of one name are in order already, so sorting leaves them in this order
  have hsorted : (ids.filter same).Pairwise fun i j => !decide (nameAt t j < nameAt t i) := by
    refine List.pairwise_iff_forall_sublist.2 fun {i j} hij => ?_
    have heq : nameAt t i = nameAt t j :=
      (hname i (hij.subset (by simp))).trans (hname j (hij.subset (by simp))).symm
    exact sortByName_le_iff.2 (heq ▸ String.le_refl _)
  have hsub : (ids.filter same).Sublist (sortByName t ids) :=
    List.sublist_mergeSort (sortByName_le_trans t) (sortByName_le_total t) hsorted
      List.filter_sublist
  have hfilter := hsub.filter same
  rw [List.filter_filter] at hfilter
  simp only [Bool.and_self] at hfilter
  exact (hfilter.eq_of_length ((sortByName_perm t ids).filter same).length_eq.symm).symm

/-- A list in the order of the table is sorted by name, and by place where names are equal. -/
theorem pairwise_sortByName (hids : ids.Pairwise (· < ·)) :
    (sortByName t ids).Pairwise fun i j =>
      nameAt t i < nameAt t j ∨ nameAt t i = nameAt t j ∧ i < j := by
  refine List.pairwise_iff_forall_sublist.2 fun {i j} hij => ?_
  have hle : nameAt t i ≤ nameAt t j :=
    List.pairwise_iff_forall_sublist.1 (sorted_sortByName t ids) hij
  by_cases heq : nameAt t i = nameAt t j
  · -- the two stand in this order among the classes of their name, before sorting as after it
    have hsame := hij.filter fun k => nameAt t k == nameAt t i
    rw [filter_sortByName] at hsame
    have hboth : [i, j].filter (fun k => nameAt t k == nameAt t i) = [i, j] := by
      simp [heq]
    rw [hboth] at hsame
    exact Or.inr ⟨heq, List.pairwise_iff_forall_sublist.1 hids
      (hsame.trans List.filter_sublist)⟩
  · refine Or.inl (String.not_le.1 fun hge => heq ?_)
    exact String.le_antisymm hle hge

/-! ### The lists of a forest -/

/-- The simple name of class `i`. -/
def nameOf (f : Forest) (i : NodeId) : String :=
  ((f.node? i).map (·.name)).getD ""

/-- What siblings are sorted by: the bytes of the name, then the place in the table. -/
def sortKey (f : Forest) (i : NodeId) : List UInt8 ×ₗ NodeId :=
  toLex (bytes (f.nameOf i), i)

/-- The lists of a forest are sorted, and are otherwise those that were kept while its classes were
linked. -/
structure InOrder (f : Forest) (kept : Filing) : Prop where
  /-- The classes that derive from a class ascend by name and place. -/
  children : ∀ i, (f.childrenOf i).Pairwise fun j k => f.sortKey j < f.sortKey k
  /-- The classes inside a class ascend by name and place. -/
  nested : ∀ i, (f.nestedOf i).Pairwise fun j k => f.sortKey j < f.sortKey k
  /-- The names of the roots do not descend. -/
  roots : f.roots.Pairwise fun i j => bytes (f.nameOf i) ≤ bytes (f.nameOf j)
  /-- The lists were kept along with the links of the forest. -/
  parent : ∀ i, f.parent? i = kept.links.parent? i
  container : ∀ i, f.container? i = kept.links.container? i
  /-- Sorting takes nothing out of the lists and puts nothing in. -/
  children_perm : ∀ i, (f.childrenOf i).Perm (kept.children i)
  nested_perm : ∀ i, (f.nestedOf i).Perm (kept.nested i)
  roots_perm : f.roots.Perm kept.roots

theorem nameOf_build (ds : List Declaration) (i : NodeId) :
    (build ds).nameOf i = nameAt (Table.ofList ds) i := by
  unfold nameOf nameAt
  by_cases hi : i < (Table.ofList ds).size
  · have hentry : (Table.ofList ds).entries[i]? = some (Table.ofList ds).entries[i] :=
      Array.getElem?_eq_getElem hi
    rw [node?_build hi, hentry]
    rfl
  · rw [node?_build_eq_none hi, Array.getElem?_eq_none (Nat.le_of_not_lt hi)]
    rfl

theorem pairwise_hangingBelow (n : Nat) (above : NodeId → Option NodeId) (i : NodeId) :
    (hangingBelow n above i).Pairwise (· < ·) :=
  List.pairwise_lt_range.filter _

theorem pairwise_sortKey (hids : ids.Pairwise (· < ·)) :
    (sortByName (Table.ofList ds) ids).Pairwise fun i j =>
      (build ds).sortKey i < (build ds).sortKey j := by
  refine (pairwise_sortByName hids).imp fun {i j} hij => ?_
  unfold sortKey
  rw [Prod.Lex.toLex_lt_toLex, nameOf_build, nameOf_build, bytes_lt_iff]
  exact hij.imp_right fun h => ⟨congrArg bytes h.1, h.2⟩

/-- The roots that were never cut loose are those without a link before loops were broken. -/
theorem filter_natural (t : Table) :
    (List.range t.size).filter (fun i => ((Links.resolve t).1.above? i).isNone &&
        !(Links.resolve t).2.contains i) =
      (List.range t.size).filter fun i => ((Links.inheritance t).above? i).isNone := by
  have hreleased := Links.released_resolve t
  refine List.filter_congr fun i hi => ?_
  rw [List.mem_range] at hi
  rw [Bool.eq_iff_iff, Bool.and_eq_true, Bool.not_eq_true', List.contains_eq_mem,
    decide_eq_false_iff_not, Links.mem_resolve_iff, Option.isNone_iff_eq_none,
    Option.isNone_iff_eq_none]
  by_cases hcut : Links.Cut (Links.inheritance t).above? i
  · -- the chain above a class that was cut loose did not end at the class itself
    exact iff_of_false (fun h => h.2 hcut) fun h => hcut.1 (.of_none h)
  · rw [hreleased.above?_kept fun h => hcut h.2, and_iff_left hcut]

/-- **The lists of a built forest are in order**, whatever names its classes share and whatever
links were refused or cut to make it. -/
theorem inOrder_build (ds : List Declaration) :
    (build ds).InOrder (Filing.ofTable (Table.ofList ds)) where
  children i := by
    rw [childrenOf_build]
    exact pairwise_sortKey (pairwise_hangingBelow _ _ i)
  nested i := by
    rw [nestedOf_build]
    exact pairwise_sortKey (pairwise_hangingBelow _ _ i)
  roots := by
    refine (sorted_sortByName (Table.ofList ds) _).imp fun {i j} hij => ?_
    rw [nameOf_build, nameOf_build, ← List.not_lt, bytes_lt_iff]
    exact String.not_lt.2 hij
  parent i := by
    rw [parent?_build, (Filing.agrees_ofTable _).links]
  container i := by
    rw [container?_build, (Filing.agrees_ofTable _).links]
  children_perm i := by
    rw [childrenOf_build, (Filing.agrees_ofTable _).children i]
    exact sortByName_perm _ _
  nested_perm i := by
    rw [nestedOf_build, (Filing.agrees_ofTable _).nested i]
    exact sortByName_perm _ _
  roots_perm := by
    rw [(Filing.agrees_ofTable _).roots, ← filter_natural]
    exact roots_build_perm ds

end Forest

end Lineage
