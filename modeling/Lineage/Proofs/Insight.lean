import Lineage.Proofs.Locality
import Lineage.Proofs.Returns

/-!
# Patterns and carriage returns

A search takes the first route of a pattern that leads on.  In a text with a carriage return before
each newline a pattern has more routes than in the bare text, since it can stop between the two
characters, so the lists of routes differ; but as long as what comes next cannot tell the two places
apart, the first route that leads on is the same one (`Agrees`).

How far this holds can be read off a pattern: `insight` computes it, and `sees_insight` says that
it is right, by induction on the pattern.  What has to be known of the parts is whether they can
start at the end of a line (`solid`, `still`) and whether they can stop behind a carriage return
(`lands`, `tight`).  From the first routes at all places, `hitsIn_bare` finds the same hits in both
texts.
-/

namespace Lineage.Pattern

open Cursor Text

variable {text : List Char} {p q : Pattern} {i : Nat} {r : Route}

/-! ### Patterns at the end of a line -/

mutual

/-- Whether a pattern has no route from a place before a carriage return or a newline. -/
def solid : Pattern → Bool
  | one set => !set '\r' && !set '\n'
  | seq p q => p.solid || (p.still && q.solid)
  | alt p q => p.solid && q.solid
  | marked _ p => p.solid
  | _ => false

/-- Whether the routes of a pattern do not move from a place before a carriage return or a
newline. -/
def still : Pattern → Bool
  | one set | run set _ => !set '\r' && !set '\n'
  | seq p q => p.solid || (p.still && q.still)
  | alt p q => p.still && q.still
  | many p | marked _ p => p.still
  | empty | lineStart | wordEdge => true

end

/-- A place before a carriage return or a newline. -/
def AtLineEnd (text : List Char) (i : Nat) : Prop :=
  text[i]? = some '\r' ∨ text[i]? = some '\n'

theorem AtLineEnd.any_eq_false {set : Char → Bool} (h : AtLineEnd text i)
    (hset : (!set '\r' && !set '\n') = true) : text[i]?.any set = false := by
  rw [Bool.and_eq_true, Bool.not_eq_true', Bool.not_eq_true'] at hset
  rcases h with h | h
  · rw [h]
    exact hset.1
  · rw [h]
    exact hset.2

theorem runEnds_of_any {set : Char → Bool} (h : text[i]?.any set = true) :
    runEnds set text i = i :: runEnds set text (i + 1) := by
  obtain ⟨c, hc, hset⟩ := (Option.any_eq_true _ _).1 h
  rw [runEnds, drop_of_getElem? hc, List.takeWhile_cons_of_pos hset, List.length_cons,
    List.range'_succ, runEnds]

theorem runEnds_of_not_any {set : Char → Bool} (h : text[i]?.any set = false) :
    runEnds set text i = [i] := by
  cases hc : text[i]? with
  | none =>
    rw [runEnds, List.drop_eq_nil_of_le (List.getElem?_eq_none_iff.1 hc)]
    rfl
  | some c =>
    rw [hc, Option.any_some] at h
    rw [runEnds, drop_of_getElem? hc, List.takeWhile_cons_of_neg (by rw [h]; decide)]
    rfl

/-- At the end of a line a solid pattern has no route, and a still one stays there. -/
theorem solid_still (h : AtLineEnd text i) (p : Pattern) :
    (p.solid = true → p.routes text i = []) ∧
      (p.still = true → ∀ r ∈ p.routes text i, r.stop = i) := by
  -- both at once: a sequence is also solid if it stands still and then meets a solid part
  induction p with
  | one set =>
    have hnone : (!set '\r' && !set '\n') = true → (one set).routes text i = [] := fun hset => by
      rw [routes, h.any_eq_false hset]
      rfl
    refine ⟨hnone, fun hset => ?_⟩
    rw [hnone hset]
    simp
  | run set eager =>
    refine ⟨fun hsolid => (Bool.false_ne_true hsolid).elim, fun hset r hr => ?_⟩
    obtain ⟨j, hj, rfl⟩ := mem_routes_run.1 hr
    rw [runEnds_of_not_any (h.any_eq_false hset)] at hj
    exact List.mem_singleton.1 hj
  | seq p q ihp ihq =>
    have hfirst : p.solid = true → (seq p q).routes text i = [] := fun hp => by
      rw [routes, ihp.1 hp]
      rfl
    constructor
    · intro hsolid
      rw [solid, Bool.or_eq_true, Bool.and_eq_true] at hsolid
      rcases hsolid with hp | ⟨hp, hq⟩
      · exact hfirst hp
      · refine List.eq_nil_iff_forall_not_mem.2 (fun r hr => ?_)
        obtain ⟨r₁, h₁, r₂, h₂, rfl⟩ := mem_andThen.1 hr
        rw [ihp.2 hp r₁ h₁, ihq.1 hq] at h₂
        cases h₂
    · intro hstill r hr
      rw [still, Bool.or_eq_true, Bool.and_eq_true] at hstill
      rcases hstill with hp | ⟨hp, hq⟩
      · rw [hfirst hp] at hr
        cases hr
      · obtain ⟨r₁, h₁, r₂, h₂, rfl⟩ := mem_andThen.1 hr
        rw [ihp.2 hp r₁ h₁] at h₂
        exact ihq.2 hq r₂ h₂
  | alt p q ihp ihq =>
    constructor
    · intro hsolid
      rw [solid, Bool.and_eq_true] at hsolid
      rw [routes, ihp.1 hsolid.1, ihq.1 hsolid.2, List.append_nil]
    · intro hstill r hr
      rw [still, Bool.and_eq_true] at hstill
      rcases List.mem_append.1 hr with hr | hr
      · exact ihp.2 hstill.1 r hr
      · exact ihq.2 hstill.2 r hr
  | many p ih =>
    refine ⟨fun hsolid => (Bool.false_ne_true hsolid).elim, fun hstill r hr => ?_⟩
    rw [routes, repeated_at_end (fun r hr => Nat.le_of_eq (ih.2 hstill r hr)),
      List.mem_singleton] at hr
    rw [hr]
  | marked mark p ih =>
    constructor
    · intro hsolid
      rw [routes, ih.1 hsolid, List.map_nil]
    · intro hstill r hr
      obtain ⟨inner, hinner, rfl⟩ := List.mem_map.1 hr
      exact ih.2 hstill inner hinner
  | empty =>
    refine ⟨fun hsolid => (Bool.false_ne_true hsolid).elim, fun _ r hr => ?_⟩
    rw [List.mem_singleton.1 hr]
  | lineStart | wordEdge =>
    refine ⟨fun hsolid => (Bool.false_ne_true hsolid).elim, fun _ r hr => ?_⟩
    rw [routes, List.mem_ite_nil_right, List.mem_singleton] at hr
    rw [hr.2]

/-- A solid pattern reads something. -/
theorem lt_stop_of_solid (hp : p.solid = true) (hr : r ∈ p.routes text i) : i < r.stop := by
  induction p generalizing i r with
  | one set =>
    rw [routes, List.mem_ite_nil_right, List.mem_singleton] at hr
    rw [hr.2]
    exact Nat.lt_succ_self i
  | seq p q ihp ihq =>
    obtain ⟨r₁, h₁, r₂, h₂, rfl⟩ := mem_andThen.1 hr
    have hle := (fits_of_mem_routes p i r₁ h₁).le_stop
    have hle' := (fits_of_mem_routes q r₁.stop r₂ h₂).le_stop
    show i < r₂.stop
    rw [solid, Bool.or_eq_true, Bool.and_eq_true] at hp
    rcases hp with hp | hp
    · have := ihp hp h₁
      omega
    · have := ihq hp.2 h₂
      omega
  | alt p q ihp ihq =>
    rw [solid, Bool.and_eq_true] at hp
    rcases List.mem_append.1 hr with hr | hr
    · exact ihp hp.1 hr
    · exact ihq hp.2 hr
  | marked mark p ih =>
    obtain ⟨inner, hinner, rfl⟩ := List.mem_map.1 hr
    exact ih (r := inner) hp hinner
  | empty | run | many | lineStart | wordEdge => cases hp

/-! ### Stopping beside carriage returns -/

mutual

/-- Whether the last character that a pattern reads is no carriage return, and there is one. -/
def lands : Pattern → Bool
  | one set => !set '\r'
  | seq p q => q.lands || (p.lands && q.tight)
  | alt p q => p.lands && q.lands
  | marked _ p => p.lands
  | _ => false

/-- Whether the last character that a pattern reads, if any, is no carriage return. -/
def tight : Pattern → Bool
  | one set | run set _ => !set '\r'
  | seq p q => q.lands || (p.tight && q.tight)
  | alt p q => p.tight && q.tight
  | many p | marked _ p => p.tight
  | empty | lineStart | wordEdge => true

end

/-- A pattern that lands never stops behind a carriage return, and a tight one only where it
starts. -/
theorem lands_tight (text : List Char) (p : Pattern) :
    (p.lands = true → ∀ i, ∀ r ∈ p.routes text i, ¬ Between text r.stop) ∧
      (p.tight = true → ∀ i, ∀ r ∈ p.routes text i, r.stop = i ∨ ¬ Between text r.stop) := by
  -- both at once: a tight part that reads nothing leaves the place to the part before it
  induction p with
  | one set =>
    have hone : set '\r' = false → ∀ i, ∀ r ∈ (one set).routes text i, ¬ Between text r.stop := by
      intro hset i r hr
      rw [routes, List.mem_ite_nil_right, List.mem_singleton] at hr
      obtain ⟨c, hc, hcset⟩ := (Option.any_eq_true _ _).1 hr.1
      rw [hr.2]
      refine not_between_succ hc ?_
      rintro rfl
      rw [hset] at hcset
      cases hcset
    exact ⟨fun h => hone ((Bool.not_eq_eq_eq_not ..).1 h),
      fun h i r hr => Or.inr (hone ((Bool.not_eq_eq_eq_not ..).1 h) i r hr)⟩
  | run set eager =>
    refine ⟨fun h => (Bool.false_ne_true h).elim, fun h i r hr => ?_⟩
    obtain ⟨j, hj, rfl⟩ := mem_routes_run.1 hr
    obtain heq | hlt := Nat.eq_or_lt_of_le (mem_runEnds hj).1
    · exact Or.inl heq.symm
    · refine Or.inr ?_
      rintro ⟨k, rfl, hk⟩
      obtain ⟨c, hc, hset⟩ := getElem?_of_mem_runEnds hj (Nat.le_of_lt_succ hlt)
        (Nat.lt_succ_self k)
      rw [hk] at hc
      rw [tight, Option.some.inj hc, hset] at h
      cases h
  | seq p q ihp ihq =>
    constructor
    · intro h i r hr
      obtain ⟨r₁, h₁, r₂, h₂, rfl⟩ := mem_andThen.1 hr
      rw [lands, Bool.or_eq_true, Bool.and_eq_true] at h
      rcases h with h | ⟨hp, hq⟩
      · exact ihq.1 h r₁.stop r₂ h₂
      · show ¬ Between text r₂.stop
        rcases ihq.2 hq r₁.stop r₂ h₂ with heq | hnot
        · rw [heq]
          exact ihp.1 hp i r₁ h₁
        · exact hnot
    · intro h i r hr
      obtain ⟨r₁, h₁, r₂, h₂, rfl⟩ := mem_andThen.1 hr
      rw [tight, Bool.or_eq_true, Bool.and_eq_true] at h
      rcases h with h | ⟨hp, hq⟩
      · exact Or.inr (ihq.1 h r₁.stop r₂ h₂)
      · show r₂.stop = i ∨ ¬ Between text r₂.stop
        rcases ihq.2 hq r₁.stop r₂ h₂ with heq | hnot
        · rw [heq]
          exact ihp.2 hp i r₁ h₁
        · exact Or.inr hnot
  | alt p q ihp ihq =>
    constructor
    · intro h i r hr
      rw [lands, Bool.and_eq_true] at h
      rcases List.mem_append.1 hr with hr | hr
      · exact ihp.1 h.1 i r hr
      · exact ihq.1 h.2 i r hr
    · intro h i r hr
      rw [tight, Bool.and_eq_true] at h
      rcases List.mem_append.1 hr with hr | hr
      · exact ihp.2 h.1 i r hr
      · exact ihq.2 h.2 i r hr
  | many p ih =>
    refine ⟨fun h => (Bool.false_ne_true h).elim, fun h i => ?_⟩
    refine repeated_induction (fun _ => Or.inl rfl) ?_ (ih.2 h) _ i
    intro i r r' hr hr'
    show r'.stop = i ∨ ¬ Between text r'.stop
    rcases hr' with heq | hnot
    · rw [heq]
      exact hr
    · exact Or.inr hnot
  | marked mark p ih =>
    constructor
    · intro h i r hr
      obtain ⟨inner, hinner, rfl⟩ := List.mem_map.1 hr
      exact ih.1 h i inner hinner
    · intro h i r hr
      obtain ⟨inner, hinner, rfl⟩ := List.mem_map.1 hr
      exact ih.2 h i inner hinner
  | empty =>
    refine ⟨fun h => (Bool.false_ne_true h).elim, fun _ i r hr => Or.inl ?_⟩
    rw [List.mem_singleton.1 hr]
  | lineStart | wordEdge =>
    refine ⟨fun h => (Bool.false_ne_true h).elim, fun _ i r hr => Or.inl ?_⟩
    rw [routes, List.mem_ite_nil_right, List.mem_singleton] at hr
    rw [hr.2]

/-- From a place that is not between a carriage return and its newline, a tight pattern stops at
such a place again. -/
theorem not_between_stop (hp : p.tight = true) (hi : ¬ Between text i) (hr : r ∈ p.routes text i) :
    ¬ Between text r.stop := by
  rcases (lands_tight text p).2 hp i r hr with heq | hnot
  · rwa [heq]
  · exact hnot

/-! ### Routes in the bare text -/

/-- Routes of a text and of its bare text that offer the same first outcome to `f`. -/
def Alike (text : List Char) (f : Route → Option Route) (found found' : List Route) : Prop :=
  (found.map (Route.move (bareAt text))).findSome? f = found'.findSome? f

/-- A pattern offers the same first outcome from a place and from its bare place. -/
def Agrees (text : List Char) (f : Route → Option Route) (p : Pattern) (i : Nat) : Prop :=
  Alike text f (p.routes text i) (p.routes (bare text) (bareAt text i))

/-- `f` has no outcome for a route that stops before a newline. -/
def Shuns (text : List Char) (f : Route → Option Route) : Prop :=
  ∀ r : Route, text[r.stop]? = some '\n' → f r = none

section Alike

variable {f : Route → Option Route} {found found' : List Route}

theorem Alike.append {more more' : List Route} (h : Alike text f found found')
    (hmore : Alike text f more more') : Alike text f (found ++ more) (found' ++ more') := by
  unfold Alike at *
  rw [List.map_append, List.findSome?_append, List.findSome?_append, h, hmore]

theorem findSome?_congr {α : Type} {l : List α} {f g : α → Option Route}
    (h : ∀ a ∈ l, f a = g a) : l.findSome? f = l.findSome? g := by
  induction l with
  | nil => rfl
  | cons a l ih =>
    rw [List.findSome?_cons, List.findSome?_cons, h a List.mem_cons_self,
      ih (fun b hb => h b (List.mem_cons_of_mem a hb))]

/-- Routes that go on from alike routes in alike ways. -/
theorem Alike.andThen {second second' : Nat → List Route}
    (h : Alike text (fun r => (second' r.stop).findSome? (fun r' => f (r'.after r.spots)))
      found found')
    (hsecond : ∀ r ∈ found,
      Alike text (fun r' => f (r'.after (r.spots.map (Spot.move (bareAt text)))))
        (second r.stop) (second' (bareAt text r.stop))) :
    Alike text f (Pattern.andThen found second) (Pattern.andThen found' second') := by
  unfold Alike at *
  rw [findSome?_andThen, ← h, List.findSome?_map, List.findSome?_map, findSome?_andThen]
  refine findSome?_congr (fun r hr => ?_)
  have hr' := hsecond r hr
  rw [List.findSome?_map] at hr'
  refine Eq.trans ?_ hr'
  congr 1
  funext r'
  rw [Function.comp_apply, Function.comp_apply, Route.move_after]

theorem Alike.of_eq (h : found.map (Route.move (bareAt text)) = found') :
    Alike text f found found' :=
  congrArg (List.findSome? f) h

theorem alike_nil : Alike text f [] [] := rfl

end Alike

/-! ### Runs -/

section Runs

variable {set : Char → Bool} {β : Type}

theorem any_bareAt (htext : Paired text) (hset : set '\r' = set '\n') (i : Nat) :
    (bare text)[bareAt text i]?.any set = text[i]?.any set := by
  by_cases h : text[i]? = some '\r'
  · rw [getElem?_bareAt_return htext h, h]
    exact hset.symm
  · rw [getElem?_bareAt h]

/-- A run reaches the same places of the bare text in the same order, the one before a carriage
return perhaps twice. -/
theorem findSome?_runEnds (htext : Paired text) (hset : set '\r' = set '\n') (f : Nat → Option β)
    (i : Nat) :
    ((runEnds set text i).map (bareAt text)).findSome? f =
        (runEnds set (bare text) (bareAt text i)).findSome? f ∧
      ((runEnds set text i).map (bareAt text)).reverse.findSome? f =
        (runEnds set (bare text) (bareAt text i)).reverse.findSome? f := by
  -- on what is left of the text
  generalize hn : text.length - i = n
  induction n generalizing i with
  | zero =>
    have hnone : text[i]?.any set = false := by
      rw [List.getElem?_eq_none (by omega)]
      rfl
    rw [runEnds_of_not_any hnone, runEnds_of_not_any ((any_bareAt htext hset i).trans hnone)]
    exact ⟨rfl, rfl⟩
  | succ n ih =>
    obtain ⟨hnext, hnext'⟩ := ih (i + 1) (by omega)
    by_cases hany : text[i]?.any set = true
    · have hbare := runEnds_of_any ((any_bareAt htext hset i).trans hany)
      rw [runEnds_of_any hany, hbare, List.map_cons, List.reverse_cons, List.reverse_cons,
        List.findSome?_append, List.findSome?_append]
      by_cases hreturn : text[i]? = some '\r'
      · -- the place behind the carriage return goes to the same place of the bare text
        rw [bareAt_succ_return hreturn, hbare] at hnext hnext'
        rw [hnext', List.reverse_cons, List.findSome?_append, Option.or_assoc, Option.or_self]
        rw [List.findSome?_cons, hnext]
        refine ⟨?_, rfl⟩
        cases hf : f (bareAt text i) with
        | none => rfl
        | some b => rw [List.findSome?_cons, hf]
      · obtain ⟨c, hc, _⟩ := (Option.any_eq_true _ _).1 hany
        rw [bareAt_succ hc (fun h => hreturn (h ▸ hc))] at hnext hnext'
        rw [hnext', List.findSome?_cons, hnext, ← List.findSome?_cons]
        exact ⟨rfl, rfl⟩
    · rw [Bool.not_eq_true] at hany
      rw [runEnds_of_not_any hany, runEnds_of_not_any ((any_bareAt htext hset i).trans hany)]
      exact ⟨rfl, rfl⟩

theorem agrees_run (htext : Paired text) (hset : set '\r' = set '\n') (eager : Bool)
    (f : Route → Option Route) (i : Nat) : Agrees text f (run set eager) i := by
  have hends := findSome?_runEnds htext hset (fun j => f ⟨j, []⟩) i
  unfold Agrees Alike
  cases eager with
  | true =>
    have heager : ∀ text i, (run set true).routes text i =
        (runEnds set text i).reverse.map (⟨·, []⟩) := fun _ _ => rfl
    rw [heager, heager, List.map_map, List.findSome?_map, List.findSome?_map]
    have hends := hends.2
    rw [← List.map_reverse, List.findSome?_map] at hends
    exact hends
  | false =>
    have hlazy : ∀ text i, (run set false).routes text i =
        (runEnds set text i).map (⟨·, []⟩) := fun _ _ => rfl
    rw [hlazy, hlazy, List.map_map, List.findSome?_map, List.findSome?_map]
    have hends := hends.1
    rw [List.findSome?_map] at hends
    exact hends

end Runs

/-! ### Anchors -/

/-- Behind a carriage return and its newline, the character before a place is the same. -/
theorem before_bareAt (htext : Paired text) (hi : ¬ Between text i) :
    (place (bare text) (bareAt text i)).before = (place text i).before := by
  show ((bare text).take (bareAt text i)).getLast? = (text.take i).getLast?
  rw [take_bareAt]
  cases hlast : (text.take i).getLast? with
  | none => rw [List.getLast?_eq_none_iff.1 hlast, bare_nil, List.getLast?_nil]
  | some c =>
    obtain ⟨start, hstart⟩ := List.getLast?_eq_some_iff.1 hlast
    have hlength := congrArg List.length hstart
    rw [List.length_take, List.length_append, List.length_singleton] at hlength
    have hlt : start.length < i := by omega
    have hget : text[start.length]? = some c := by
      rw [← List.getElem?_take_of_lt hlt, hstart, List.getElem?_concat_length]
    have hc : c ≠ '\r' := by
      rintro rfl
      have hnewline := (List.getElem?_eq_some_iff.1 (htext _ hget)).1
      exact hi ⟨start.length, by omega, hget⟩
    rw [hstart, bare_append, bare_cons hc, bare_nil, List.getLast?_concat]

theorem agrees_lineStart (htext : Paired text) (hi : ¬ Between text i) (f : Route → Option Route) :
    Agrees text f lineStart i := by
  have hstart : (place (bare text) (bareAt text i)).atLineStart = (place text i).atLineStart := by
    rw [atLineStart, atLineStart, before_bareAt htext hi]
  refine Alike.of_eq ?_
  rw [routes, routes, hstart]
  split_ifs <;> rfl

theorem agrees_wordEdge (htext : Paired text) (hi : ¬ Between text i) (f : Route → Option Route) :
    Agrees text f wordEdge i := by
  have hedge : (place (bare text) (bareAt text i)).atWordEdge = (place text i).atWordEdge := by
    rw [atWordEdge, atWordEdge, before_bareAt htext hi, rest_place, rest_place, List.head?_drop,
      List.head?_drop, any_bareAt htext (by decide +kernel)]
  refine Alike.of_eq ?_
  rw [routes, routes, hedge]
  split_ifs <;> rfl

/-! ### Sequences and repetitions -/

section Compose

variable {f : Route → Option Route}

theorem Shuns.after (hf : Shuns text f) (spots : List Spot) :
    Shuns text (fun r => f (r.after spots)) :=
  fun r hr => hf (r.after spots) hr

theorem agrees_seq
    (hp : Agrees text (fun r => (q.routes (bare text) r.stop).findSome? (fun r' =>
      f (r'.after r.spots))) p i)
    (hq : ∀ r ∈ p.routes text i,
      Agrees text (fun r' => f (r'.after (r.spots.map (Spot.move (bareAt text))))) q r.stop) :
    Agrees text f (seq p q) i :=
  Alike.andThen hp hq

/-- What goes on with a solid pattern does not go on from a newline. -/
theorem shuns_of_solid (hq : q.solid = true) (f : Route → Route → Option Route) :
    Shuns text (fun r => (q.routes text r.stop).findSome? (f r)) := by
  intro r hr
  dsimp only
  rw [(solid_still (Or.inr hr) q).1 hq, List.findSome?_nil]

theorem agrees_of_solid (htext : Paired text) (hp : p.solid = true)
    (h : ¬ Between text i → Agrees text f p i) : Agrees text f p i := by
  by_cases hi : Between text i
  · have hnewline := hi.getElem? htext
    have hbare : (bare text)[bareAt text i]? = some '\n' := by
      rw [getElem?_bareAt (by rw [hnewline]; decide), hnewline]
    unfold Agrees
    rw [(solid_still (Or.inr hnewline) p).1 hp, (solid_still (Or.inr hbare) p).1 hp]
    exact alike_nil
  · exact h hi

theorem agrees_one {set : Char → Bool} (htext : Paired text)
    (hset : (!set '\r' && !set '\n') = true) (i : Nat) : Agrees text f (one set) i := by
  rw [Bool.and_eq_true, Bool.not_eq_true', Bool.not_eq_true'] at hset
  have hany := any_bareAt htext (hset.1.trans hset.2.symm) i
  refine Alike.of_eq ?_
  rw [routes, routes, hany]
  split_ifs with hone
  · obtain ⟨c, hc, hcset⟩ := (Option.any_eq_true _ _).1 hone
    have hreturn : c ≠ '\r' := by
      rintro rfl
      rw [hset.1] at hcset
      cases hcset
    show [_] = [_]
    rw [Route.move, bareAt_succ hc hreturn]
    rfl
  · rfl

theorem alike_repeated (hp : p.solid = true)
    (hlax : ∀ i f, Shuns (bare text) f → Agrees text f p i) (fuel : Nat) (i : Nat)
    (hf : Shuns (bare text) f) :
    Alike text f (repeated (p.routes text) fuel i)
      (repeated (p.routes (bare text)) fuel (bareAt text i)) := by
  induction fuel generalizing i f with
  | zero => exact Alike.of_eq rfl
  | succ fuel ih =>
    have hfilter : ∀ text i, (p.routes text i).filter (fun r => i < r.stop) = p.routes text i :=
      fun text i => List.filter_eq_self.2 (fun r hr => decide_eq_true (lt_stop_of_solid hp hr))
    rw [repeated, repeated, hfilter, hfilter]
    refine Alike.append (Alike.andThen (hlax i _ ?_) (fun r _ => ih r.stop (hf.after _)))
      (Alike.of_eq rfl)
    -- from a newline no repetition goes on
    intro r hr
    have hnone : ∀ r' ∈ p.routes (bare text) r.stop, r'.stop ≤ r.stop := by
      rw [(solid_still (Or.inr hr) p).1 hp]
      simp
    dsimp only
    rw [repeated_at_end hnone, List.findSome?_singleton]
    exact hf _ hr

theorem agrees_many (hp : p.solid = true)
    (hlax : ∀ i f, Shuns (bare text) f → Agrees text f p i) (i : Nat) (hf : Shuns (bare text) f) :
    Agrees text f (many p) i := by
  have hfuel : repeated (p.routes (bare text)) ((bare text).length - bareAt text i)
      (bareAt text i) = repeated (p.routes (bare text)) (text.length - i) (bareAt text i) :=
    repeated_congr (fun j hj r hr => (fits_of_mem_routes p j r hr).stop_le hj) (bareAt_le text i)
      (Nat.le_refl _) (length_sub_bareAt_le text i)
  unfold Agrees
  rw [routes, routes, hfuel]
  exact alike_repeated hp hlax _ i hf

/-- Going on from where one stands. -/
theorem andThen_here (i : Nat) (second : Nat → List Route) :
    andThen [⟨i, []⟩] second = second i := by
  have hafter : Route.after [] = id := by
    funext r
    simp [Route.after]
  rw [andThen, List.flatMap_singleton, hafter, List.map_id]

theorem routes_seq_one {set : Char → Bool} (h : text[i]?.any set = true) (q : Pattern) :
    (seq (one set) q).routes text i = q.routes text (i + 1) := by
  rw [routes, routes, h, if_pos rfl, andThen_here]

theorem routes_seq_one_of_not {set : Char → Bool} (h : text[i]?.any set = false) (q : Pattern) :
    (seq (one set) q).routes text i = [] := by
  rw [routes, routes, h]
  rfl

/-- Blanks and the like, at least one of them: a carriage return can be read without its newline,
but not with something solid after it. -/
theorem agrees_some {set set' : Char → Bool} (htext : Paired text)
    (hset : set '\r' = true ∧ set '\n' = true) (hset' : set' '\r' = true ∧ set' '\n' = true)
    (eager : Bool) (i : Nat) (hf : Shuns (bare text) f) :
    Agrees text f (seq (one set) (run set' eager)) i := by
  have hrun := agrees_run htext (hset'.1.trans hset'.2.symm) eager f (i + 1)
  have hany := any_bareAt htext (hset.1.trans hset.2.symm) i
  unfold Agrees at hrun ⊢
  by_cases hone : text[i]?.any set = true
  · rw [routes_seq_one hone, routes_seq_one (hany.trans hone)]
    by_cases hreturn : text[i]? = some '\r'
    · rw [bareAt_succ_return hreturn] at hrun
      have hnewline := getElem?_bareAt_return htext hreturn
      have hends : runEnds set' (bare text) (bareAt text i) =
          bareAt text i :: runEnds set' (bare text) (bareAt text i + 1) := by
        refine runEnds_of_any ?_
        rw [hnewline]
        exact hset'.2
      -- in the bare text the newline is the blank that has to be there, so one route is missing:
      -- the one that stops before it
      refine hrun.trans ?_
      rw [routes, routes, hends]
      cases eager with
      | true => simp [hf ⟨bareAt text i, []⟩ hnewline]
      | false => simp [hf ⟨bareAt text i, []⟩ hnewline]
    · obtain ⟨c, hc, _⟩ := (Option.any_eq_true _ _).1 hone
      rwa [bareAt_succ hc (fun h => hreturn (h ▸ hc))] at hrun
  · rw [Bool.not_eq_true] at hone
    rw [routes_seq_one_of_not hone, routes_seq_one_of_not (hany.trans hone)]
    exact alike_nil

end Compose

/-! ### Insight -/

/-- Where a pattern offers the same in a text and in the bare text. -/
structure Insight where
  /-- At every place. -/
  blind : Bool
  /-- At every place that is not between a carriage return and its newline. -/
  sighted : Bool
  /-- At every place, apart from routes that stop before a newline. -/
  lax : Bool

/-- Whether a pattern is one character that can be a carriage return or a newline. -/
def gulps : Pattern → Bool
  | one set => set '\r' && set '\n'
  | _ => false

/-- Whether a pattern is a run over carriage returns and newlines. -/
def sweeps : Pattern → Bool
  | run set _ => set '\r' && set '\n'
  | _ => false

/-- Where a pattern is known to offer the same in a text and in the bare text. -/
def insight : Pattern → Insight
  | empty => ⟨true, true, true⟩
  | one set =>
    let solid := !set '\r' && !set '\n'
    ⟨solid, solid, solid⟩
  | run set _ =>
    let even := set '\r' == set '\n'
    ⟨even, even, even⟩
  | seq p q =>
    let solid := (seq p q).solid
    -- places before a newline, where `p` may differ, are dead ends for a solid `q`
    let joined := p.insight.lax && q.solid && q.insight.blind
    -- a tight `p` hands over a place that is not between a carriage return and its newline
    let sighted := joined ||
      (p.insight.sighted && (q.insight.blind || (p.tight && q.insight.sighted)))
    -- between the two, a solid pattern has no route in either text
    let blind := joined || (p.insight.blind && q.insight.blind) || (solid && sighted)
    let lax := blind || (p.insight.blind && q.insight.lax) ||
      (p.insight.lax && q.solid && q.insight.lax) ||
      (solid && p.insight.sighted && q.insight.lax) || (p.gulps && q.sweeps)
    ⟨blind, sighted, lax⟩
  | alt p q =>
    ⟨p.insight.blind && q.insight.blind, p.insight.sighted && q.insight.sighted,
      p.insight.lax && q.insight.lax⟩
  | many p => ⟨false, false, p.solid && p.insight.lax⟩
  | marked _ p => p.insight
  | lineStart | wordEdge => ⟨false, true, false⟩

/-- A pattern offers the same in a text and in the bare text, as far as an insight says. -/
structure Sees (text : List Char) (p : Pattern) (v : Insight) : Prop where
  blind : v.blind = true → ∀ i f, Agrees text f p i
  sighted : v.sighted = true → ∀ i, ¬ Between text i → ∀ f, Agrees text f p i
  lax : v.lax = true → ∀ i f, Shuns (bare text) f → Agrees text f p i

theorem sees_of_blind (h : ∀ i f, Agrees text f p i) (v : Insight) : Sees text p v :=
  ⟨fun _ => h, fun _ i _ => h i, fun _ i f _ => h i f⟩

theorem agrees_of_gulps (htext : Paired text) (hp : p.gulps = true) (hq : q.sweeps = true)
    {f : Route → Option Route} (hf : Shuns (bare text) f) : Agrees text f (seq p q) i := by
  cases p with
  | one set =>
    cases q with
    | run set' eager =>
      rw [gulps, Bool.and_eq_true] at hp
      rw [sweeps, Bool.and_eq_true] at hq
      exact agrees_some htext hp hq eager i hf
    | empty | one | seq | alt | many | marked | lineStart | wordEdge => cases hq
  | empty | run | seq | alt | many | marked | lineStart | wordEdge => cases hp

theorem sees_seq (htext : Paired text) (hp : Sees text p p.insight) (hq : Sees text q q.insight) :
    Sees text (seq p q) (seq p q).insight := by
  have hjoined : (p.insight.lax && q.solid && q.insight.blind) = true →
      ∀ i f, Agrees text f (seq p q) i := by
    intro h i f
    simp only [Bool.and_eq_true] at h
    exact agrees_seq (hp.lax h.1.1 i _ (shuns_of_solid h.1.2 _)) (fun r _ => hq.blind h.2 r.stop _)
  have hsighted : (seq p q).insight.sighted = true →
      ∀ i, ¬ Between text i → ∀ f, Agrees text f (seq p q) i := by
    intro h i hi f
    rw [insight, Bool.or_eq_true] at h
    rcases h with h | h
    · exact hjoined h i f
    · simp only [Bool.and_eq_true, Bool.or_eq_true] at h
      refine agrees_seq (hp.sighted h.1 i hi _) (fun r hr => ?_)
      rcases h.2 with hblind | ⟨htight, hnear⟩
      · exact hq.blind hblind r.stop _
      · exact hq.sighted hnear r.stop (not_between_stop htight hi hr) _
  have hblind : (seq p q).insight.blind = true → ∀ i f, Agrees text f (seq p q) i := by
    intro h i f
    rw [insight, Bool.or_eq_true, Bool.or_eq_true] at h
    rcases h with (h | h) | h
    · exact hjoined h i f
    · rw [Bool.and_eq_true] at h
      exact agrees_seq (hp.blind h.1 i _) (fun r _ => hq.blind h.2 r.stop _)
    · rw [Bool.and_eq_true] at h
      exact agrees_of_solid htext h.1 (fun hi => hsighted h.2 i hi f)
  refine ⟨hblind, hsighted, fun h i f hf => ?_⟩
  simp only [insight, Bool.or_eq_true] at h
  rcases h with (((h | h) | h) | h) | h
  · exact hblind (by simpa only [insight, Bool.or_eq_true] using h) i f
  · rw [Bool.and_eq_true] at h
    exact agrees_seq (hp.blind h.1 i _) (fun r _ => hq.lax h.2 r.stop _ (hf.after _))
  · simp only [Bool.and_eq_true] at h
    exact agrees_seq (hp.lax h.1.1 i _ (shuns_of_solid h.1.2 _))
      (fun r _ => hq.lax h.2 r.stop _ (hf.after _))
  · simp only [Bool.and_eq_true] at h
    exact agrees_of_solid htext h.1.1 (fun hi =>
      agrees_seq (hp.sighted h.1.2 i hi _) (fun r _ => hq.lax h.2 r.stop _ (hf.after _)))
  · rw [Bool.and_eq_true] at h
    exact agrees_of_gulps htext h.1 h.2 hf

theorem agrees_marked {f : Route → Option Route} {mark : Mark}
    (h : Agrees text (fun r => f (r.note mark (bareAt text i))) p i) :
    Agrees text f (marked mark p) i := by
  unfold Agrees Alike at *
  rw [List.findSome?_map] at h
  rw [routes, routes, List.map_map, List.findSome?_map, List.findSome?_map]
  exact h

/-- **What a pattern offers does not depend on carriage returns**, as far as its insight says. -/
theorem sees_insight (htext : Paired text) (p : Pattern) : Sees text p p.insight := by
  induction p with
  | empty => exact sees_of_blind (fun i f => Alike.of_eq rfl) _
  | one set =>
    exact ⟨fun h i f => agrees_one htext h i, fun h i _ f => agrees_one htext h i,
      fun h i f _ => agrees_one htext h i⟩
  | run set eager =>
    have hrun : ∀ (h : (set '\r' == set '\n') = true) i f, Agrees text f (run set eager) i :=
      fun h i f => agrees_run htext (beq_iff_eq.1 h) eager f i
    exact ⟨hrun, fun h i _ => hrun h i, fun h i f _ => hrun h i f⟩
  | seq p q ihp ihq => exact sees_seq htext ihp ihq
  | alt p q ihp ihq =>
    simp only [insight]
    refine ⟨fun h i f => ?_, fun h i hi f => ?_, fun h i f hf => ?_⟩
    · rw [Bool.and_eq_true] at h
      exact Alike.append (ihp.blind h.1 i f) (ihq.blind h.2 i f)
    · rw [Bool.and_eq_true] at h
      exact Alike.append (ihp.sighted h.1 i hi f) (ihq.sighted h.2 i hi f)
    · rw [Bool.and_eq_true] at h
      exact Alike.append (ihp.lax h.1 i f hf) (ihq.lax h.2 i f hf)
  | many p ih =>
    refine ⟨fun h => (Bool.false_ne_true h).elim, fun h => (Bool.false_ne_true h).elim,
      fun h i f hf => ?_⟩
    rw [insight, Bool.and_eq_true] at h
    exact agrees_many h.1 (ih.lax h.2) i hf
  | marked mark p ih =>
    exact ⟨fun h i f => agrees_marked (ih.blind h i _),
      fun h i hi f => agrees_marked (ih.sighted h i hi _),
      fun h i f hf => agrees_marked (ih.lax h i _ (fun r hr => hf _ hr))⟩
  | lineStart =>
    exact ⟨fun h => (Bool.false_ne_true h).elim, fun _ i hi f => agrees_lineStart htext hi f,
      fun h => (Bool.false_ne_true h).elim⟩
  | wordEdge =>
    exact ⟨fun h => (Bool.false_ne_true h).elim, fun _ i hi f => agrees_wordEdge htext hi f,
      fun h => (Bool.false_ne_true h).elim⟩

/-! ### Hits -/

section Hits

variable {free : Nat} {positions : List Nat}

theorem findSome?_some (found : List Route) : found.findSome? some = found.head? := by
  cases found <;> rfl

theorem head?_routes_bareAt (h : Agrees text some p i) :
    (p.routes (bare text) (bareAt text i)).head? =
      (p.routes text i).head?.map (Route.move (bareAt text)) := by
  unfold Agrees Alike at h
  rw [findSome?_some, findSome?_some, List.head?_map] at h
  exact h.symm

theorem hits_cons_of_nil (h : p.routes text i = []) :
    hits p text free (i :: positions) = hits p text free positions := by
  rw [hits, h]
  split_ifs <;> rfl

section Bare

variable (htext : Paired text) (hsolid : p.solid = true) (htight : p.tight = true)
  (hp : ∀ i, ¬ Between text i → Agrees text some p i)

include htight hp

theorem hits_cons_bareAt {positions' : List Nat} (hi : ¬ Between text i)
    (hlength : i ≤ text.length) (hfree : ¬ Between text free) (hfree' : free ≤ text.length)
    (hrest : ∀ free, ¬ Between text free → free ≤ text.length →
      (hits p text free positions).map (Hit.move (bareAt text)) =
        hits p (bare text) (bareAt text free) positions') :
    (hits p text free (i :: positions)).map (Hit.move (bareAt text)) =
      hits p (bare text) (bareAt text free) (bareAt text i :: positions') := by
  have hhead := head?_routes_bareAt (hp i hi)
  rw [hits, hits]
  by_cases hlt : i < free
  · rw [if_pos hlt, if_pos ((bareAt_lt_iff hfree hfree' i).2 hlt)]
    exact hrest free hfree hfree'
  · rw [if_neg hlt, if_neg (fun h => hlt ((bareAt_lt_iff hfree hfree' i).1 h)), hhead]
    cases hr : (p.routes text i).head? with
    | none => exact hrest free hfree hfree'
    | some r =>
      have hmem := List.mem_of_head? hr
      have hstop := (fits_of_mem_routes p i r hmem).stop_le hlength
      rw [Option.map_some, List.map_cons, hrest r.stop (not_between_stop htight hi hmem) hstop]
      rfl

include htext hsolid

theorem hits_bareAt (hi : ¬ Between text i) (hlength : i ≤ text.length)
    (hfree : ¬ Between text free) (hfree' : free ≤ text.length) :
    (hits p text free (List.range' i (text.length - i + 1))).map (Hit.move (bareAt text)) =
      hits p (bare text) (bareAt text free)
        (List.range' (bareAt text i) ((bare text).length - bareAt text i + 1)) := by
  generalize hn : text.length - i = n
  -- a carriage return and its newline are one step, of two characters
  induction n using Nat.strong_induction_on generalizing i free with
  | _ n ih =>
    obtain rfl | hlt := Nat.eq_or_lt_of_le hlength
    · obtain rfl : n = 0 := by omega
      rw [bareAt_length, Nat.sub_self, ← bareAt_length]
      exact hits_cons_bareAt htight hp hi hlength hfree hfree' (fun _ _ _ => rfl)
    · obtain ⟨c, hc⟩ : ∃ c, text[i]? = some c := ⟨_, List.getElem?_eq_getElem hlt⟩
      by_cases hreturn : c = '\r'
      · -- neither before the carriage return nor before its newline there is a route
        subst hreturn
        have hnewline := htext i hc
        have hlt' := (List.getElem?_eq_some_iff.1 hnewline).1
        have hbare := getElem?_bareAt_return htext hc
        have hplace : bareAt text (i + 2) = bareAt text i + 1 := by
          rw [bareAt_succ hnewline (by decide), bareAt_succ_return hc]
        have hle := bareAt_le text (i + 2)
        have hrange : List.range' i (n + 1) =
            i :: (i + 1) :: List.range' (i + 2) (n - 2 + 1) := by
          rw [List.range'_succ, show n = n - 2 + 1 + 1 by omega, List.range'_succ]
          rfl
        have hrange' : List.range' (bareAt text i) ((bare text).length - bareAt text i + 1) =
            bareAt text i :: List.range' (bareAt text (i + 2))
              ((bare text).length - bareAt text (i + 2) + 1) := by
          rw [hplace, List.range'_succ]
          congr 2
          omega
        rw [hrange, hrange', hits_cons_of_nil ((solid_still (Or.inl hc) p).1 hsolid),
          hits_cons_of_nil ((solid_still (Or.inr hnewline) p).1 hsolid),
          hits_cons_of_nil ((solid_still (Or.inr hbare) p).1 hsolid)]
        exact ih (n - 2) (by omega) (not_between_succ hnewline (by decide)) hlt' hfree hfree'
          (by omega)
      · have hplace := bareAt_succ hc hreturn
        have hle := bareAt_le text (i + 1)
        have hrange' : List.range' (bareAt text i) ((bare text).length - bareAt text i + 1) =
            bareAt text i :: List.range' (bareAt text (i + 1))
              ((bare text).length - bareAt text (i + 1) + 1) := by
          rw [hplace, List.range'_succ]
          congr 2
          omega
        have hrange : List.range' i (n + 1) = i :: List.range' (i + 1) (n - 1 + 1) := by
          rw [List.range'_succ, show n = n - 1 + 1 by omega]
          rfl
        rw [hrange, hrange']
        exact hits_cons_bareAt htight hp hi hlength hfree hfree' (fun free hfree hfree' =>
          ih (n - 1) (by omega) (not_between_succ hc hreturn) hlt hfree hfree' (by omega))

/-- **The hits of a text are those of the bare text**, at other places. -/
theorem hitsIn_bare : (p.hitsIn text).map (Hit.move (bareAt text)) = p.hitsIn (bare text) := by
  have hzero : ¬ Between text 0 := by
    rintro ⟨j, hj, _⟩
    cases hj
  exact hits_bareAt htext hsolid htight hp hzero (Nat.zero_le _) hzero (Nat.zero_le _)

end Bare

end Hits

end Lineage.Pattern
