import Lineage.Pattern.Match
import Mathlib.Data.List.Basic

/-!
# Routes through a text

Matching goes from place to place of one text, so what it does can be said in positions alone.  A
route of a pattern is a way to match it from a position on: where it ends and which stretches it
remembers.  `routes` lists them, the preferred one first, and the matcher takes the first route
from which what follows succeeds (`attempt_eq`).  So the matches of a text are the first routes at
the positions where they start (`matchesIn_eq`).

Two facts on matches follow: they lie in the text with all that they remember (`fits_of_mem`), and
they come one after the other without overlap (`pairwise_matchesIn`).
-/

namespace Lineage

/-! ### Places of a text -/

namespace Cursor

variable {text : List Char} {i : Nat} {c : Char}

/-- The cursor at a position of a text. -/
def place (text : List Char) (i : Nat) : Cursor :=
  ⟨i, (text.take i).getLast?, text.drop i⟩

@[simp]
theorem position_place (text : List Char) (i : Nat) : (place text i).position = i := rfl

@[simp]
theorem rest_place (text : List Char) (i : Nat) : (place text i).rest = text.drop i := rfl

theorem place_zero (text : List Char) : place text 0 = ⟨0, none, text⟩ := by
  simp [place]

theorem drop_of_getElem? (h : text[i]? = some c) : text.drop i = c :: text.drop (i + 1) := by
  rw [List.drop_eq_getElem?_toList_append, h]
  rfl

theorem getElem?_of_drop {rest : List Char} (h : text.drop i = c :: rest) :
    text[i]? = some c := by
  rw [← Nat.add_zero i, ← List.getElem?_drop, h]
  rfl

theorem place_succ (h : text[i]? = some c) :
    place text (i + 1) = ⟨i + 1, some c, text.drop (i + 1)⟩ := by
  rw [place, List.take_add_one, h]
  simp

/-- The positions that a run of characters of `set` can reach, in order. -/
def runEnds (set : Char → Bool) (text : List Char) (i : Nat) : List Nat :=
  List.range' i (((text.drop i).takeWhile set).length + 1)

theorem stops_place (set : Char → Bool) (text : List Char) (i : Nat) (found : List Cursor) :
    stops set i (place text i).before (text.drop i) found =
      ((runEnds set text i).map (place text)).reverse ++ found := by
  unfold runEnds
  generalize hrest : text.drop i = rest
  induction rest generalizing i found with
  | nil =>
    have hplace : place text i = ⟨i, (place text i).before, []⟩ := by rw [← hrest]; rfl
    simp [stops, ← hplace]
  | cons c rest ih =>
    have hplace : place text i = ⟨i, (place text i).before, c :: rest⟩ := by rw [← hrest]; rfl
    have hc : text[i]? = some c := getElem?_of_drop hrest
    have hrest' : text.drop (i + 1) = rest := by
      rw [drop_of_getElem? hc] at hrest
      exact (List.cons.inj hrest).2
    have hbefore : (place text (i + 1)).before = some c := by rw [place_succ hc]
    unfold stops
    split
    · rename_i hset
      have hends : List.range' i ((rest.takeWhile set).length + 1 + 1) =
          i :: List.range' (i + 1) ((rest.takeWhile set).length + 1) :=
        List.range'_succ
      rw [← hbefore, ih (i + 1) _ hrest', List.takeWhile_cons_of_pos hset, ← hplace,
        List.length_cons, hends, List.map_cons, List.reverse_cons, List.append_assoc]
      rfl
    · rename_i hset
      rw [List.takeWhile_cons_of_neg hset, ← hplace]
      rfl

theorem runs_place (set : Char → Bool) (text : List Char) (i : Nat) :
    (place text i).runs set = ((runEnds set text i).map (place text)).reverse := by
  rw [runs, rest_place, position_place, stops_place, List.append_nil]

end Cursor

namespace Pattern

open Cursor

/-! ### Routes -/

/-- A stretch of a text that is remembered under a mark. -/
structure Spot where
  mark : Mark
  start : Nat
  stop : Nat
  deriving DecidableEq, Repr

namespace Spot

/-- What is remembered of a text. -/
def capture (text : List Char) (s : Spot) : Mark × Capture :=
  (s.mark, ⟨s.start, s.stop, text.drop s.start⟩)

end Spot

/-- A way to match a pattern: where it ends, and what it remembers, the last one first. -/
structure Route where
  stop : Nat
  spots : List Spot := []
  deriving DecidableEq, Repr

namespace Route

/-- A route that follows another one, which remembers `spots`. -/
def after (spots : List Spot) (r : Route) : Route :=
  ⟨r.stop, r.spots ++ spots⟩

/-- A route whose whole stretch, from `start` on, is remembered. -/
def note (mark : Mark) (start : Nat) (r : Route) : Route :=
  ⟨r.stop, ⟨mark, start, r.stop⟩ :: r.spots⟩

end Route

/-- The routes that go on from the ends of the given ones. -/
def andThen (first : List Route) (second : Nat → List Route) : List Route :=
  first.flatMap (fun r => (second r.stop).map (Route.after r.spots))

/-- The routes of at most `fuel` steps that each read something, the longest first. -/
def repeated (step : Nat → List Route) : Nat → Nat → List Route
  | 0, i => [⟨i, []⟩]
  | fuel + 1, i =>
    andThen ((step i).filter (fun r => i < r.stop)) (repeated step fuel) ++ [⟨i, []⟩]

/-- The routes of a pattern from a position of a text on, in the order of preference. -/
def routes (text : List Char) : Pattern → Nat → List Route
  | empty, i => [⟨i, []⟩]
  | one set, i => if text[i]?.any set then [⟨i + 1, []⟩] else []
  | run set eager, i =>
    (if eager then (runEnds set text i).reverse else runEnds set text i).map (⟨·, []⟩)
  | seq first second, i => andThen (routes text first i) (routes text second)
  | alt first second, i => routes text first i ++ routes text second i
  | many body, i => repeated (routes text body) (text.length - i) i
  | marked mark body, i => (routes text body i).map (Route.note mark i)
  | lineStart, i => if (place text i).atLineStart then [⟨i, []⟩] else []
  | wordEdge, i => if (place text i).atWordEdge then [⟨i, []⟩] else []

/-! ### The matcher takes the first route -/

/-- Going on after a route. -/
def resume (text : List Char) (captures : Captures) (next : Continuation) (r : Route) : Outcome :=
  next (place text r.stop) (r.spots.map (Spot.capture text) ++ captures)

theorem findSome?_andThen {β : Type} (first : List Route) (second : Nat → List Route)
    (f : Route → Option β) :
    (andThen first second).findSome? f =
      first.findSome? (fun r => (second r.stop).findSome? (fun r' => f (r'.after r.spots))) := by
  unfold andThen
  induction first with
  | nil => rfl
  | cons r first ih =>
    rw [List.flatMap_cons, List.findSome?_append, ih, List.findSome?_cons, List.findSome?_map]
    cases h : (second r.stop).findSome? (fun r' => f (r'.after r.spots)) with
    | none => rw [Function.comp_def, h]; rfl
    | some outcome => rw [Function.comp_def, h]; rfl

theorem findSome?_filter (l : List Route) (p : Route → Bool) (f : Route → Outcome) :
    (l.filter p).findSome? f = l.findSome? (fun r => if p r then f r else none) := by
  induction l with
  | nil => rfl
  | cons r l ih =>
    by_cases h : p r = true
    · rw [List.filter_cons_of_pos h, List.findSome?_cons, List.findSome?_cons, ih, if_pos h]
    · rw [List.filter_cons_of_neg h, List.findSome?_cons, ih, if_neg h]

theorem resume_after (text : List Char) (captures : Captures) (next : Continuation)
    (spots : List Spot) (r : Route) :
    resume text captures next (r.after spots) =
      resume text (spots.map (Spot.capture text) ++ captures) next r := by
  simp [resume, Route.after]

theorem repeatStep_eq {step : Cursor → Captures → Continuation → Outcome}
    {stepRoutes : Nat → List Route} {text : List Char}
    (hstep : ∀ i captures next, step (place text i) captures next =
      (stepRoutes i).findSome? (resume text captures next))
    (fuel : List Char) (i : Nat) (captures : Captures) (next : Continuation) :
    repeatStep step fuel (place text i) captures next =
      (repeated stepRoutes fuel.length i).findSome? (resume text captures next) := by
  induction fuel generalizing i captures with
  | nil => simp [repeatStep, repeated, resume]
  | cons c fuel ih =>
    have hfurther : step (place text i) captures (fun cursor' captures' =>
        if i < cursor'.position then repeatStep step fuel cursor' captures' next else none) =
        (andThen ((stepRoutes i).filter (fun r => i < r.stop))
          (repeated stepRoutes fuel.length)).findSome? (resume text captures next) := by
      rw [hstep, findSome?_andThen, findSome?_filter]
      congr 1
      funext r
      simp only [resume_after, ← ih, decide_eq_true_eq]
      rfl
    have hstay : next (place text i) captures = resume text captures next ⟨i, []⟩ := rfl
    rw [repeatStep, position_place, List.length_cons, repeated, List.findSome?_append, hfurther]
    cases (andThen ((stepRoutes i).filter (fun r => i < r.stop))
        (repeated stepRoutes fuel.length)).findSome? (resume text captures next) with
    | none =>
      simp only [Option.none_or, List.findSome?_cons, List.findSome?_nil, ← hstay]
      cases next (place text i) captures <;> rfl
    | some outcome => rfl

/-- **The matcher takes the first route** from which what follows succeeds. -/
theorem attempt_eq (p : Pattern) (text : List Char) (i : Nat) (captures : Captures)
    (next : Continuation) :
    p.attempt (place text i) captures next =
      (p.routes text i).findSome? (resume text captures next) := by
  induction p generalizing i captures next with
  | empty => simp [attempt, routes, resume]
  | one set =>
    rw [attempt, routes, rest_place]
    cases h : text[i]? with
    | none =>
      have hnil : text.drop i = [] := List.drop_eq_nil_of_le (List.getElem?_eq_none_iff.1 h)
      rw [hnil]
      rfl
    | some c =>
      have hplace : (place text i).advance c (text.drop (i + 1)) = place text (i + 1) := by
        rw [place_succ h]
        rfl
      rw [drop_of_getElem? h, Option.any_some]
      simp only [hplace]
      split <;> simp [resume]
  | run set eager =>
    rw [attempt, routes, runs_place, List.reverse_reverse, ← List.map_reverse]
    cases eager with
    | true =>
      rw [if_pos rfl, if_pos rfl, List.findSome?_map, List.findSome?_map]
      rfl
    | false =>
      rw [if_neg Bool.false_ne_true, if_neg Bool.false_ne_true, List.findSome?_map,
        List.findSome?_map]
      rfl
  | seq first second ihFirst ihSecond =>
    rw [attempt, routes, ihFirst, findSome?_andThen]
    congr 1
    funext r
    simp only [resume_after, ← ihSecond]
    rfl
  | alt first second ihFirst ihSecond =>
    rw [attempt, routes, List.findSome?_append, ihFirst, ihSecond]
    cases (first.routes text i).findSome? (resume text captures next) <;> rfl
  | many body ih =>
    rw [attempt, routes, rest_place, repeatStep_eq ih, List.length_drop]
  | marked mark body ih =>
    rw [attempt, routes, ih, List.findSome?_map]
    rfl
  | lineStart =>
    rw [attempt, routes]
    split <;> simp [resume]
  | wordEdge =>
    rw [attempt, routes]
    split <;> simp [resume]

/-! ### Where routes lead -/

section Bounds

variable {text : List Char} {p : Pattern} {i : Nat} {r : Route}

/-- A route from a position to a later one of a text, with all that it remembers between them. -/
structure Route.Fits (text : List Char) (i : Nat) (r : Route) : Prop where
  le_stop : i ≤ r.stop
  stop_le : i ≤ text.length → r.stop ≤ text.length
  spots : ∀ s ∈ r.spots, i ≤ s.start ∧ s.start ≤ s.stop ∧ s.stop ≤ r.stop

theorem fits_here (text : List Char) (i : Nat) : Route.Fits text i ⟨i, []⟩ :=
  ⟨Nat.le_refl i, id, by simp⟩

theorem Route.Fits.after {r' : Route} (h : r.Fits text i) (h' : r'.Fits text r.stop) :
    (r'.after r.spots).Fits text i where
  le_stop := Nat.le_trans h.le_stop h'.le_stop
  stop_le := fun hi => h'.stop_le (h.stop_le hi)
  spots := by
    intro s hs
    have hle := h.le_stop
    have hle' := h'.le_stop
    show i ≤ s.start ∧ s.start ≤ s.stop ∧ s.stop ≤ r'.stop
    rcases List.mem_append.1 hs with hs | hs
    · have := h'.spots s hs
      omega
    · have := h.spots s hs
      omega

theorem mem_andThen {first : List Route} {second : Nat → List Route} :
    r ∈ andThen first second ↔
      ∃ r₁ ∈ first, ∃ r₂ ∈ second r₁.stop, r = r₂.after r₁.spots := by
  simp only [andThen, List.mem_flatMap, List.mem_map]
  constructor
  · rintro ⟨r₁, h₁, r₂, h₂, rfl⟩
    exact ⟨r₁, h₁, r₂, h₂, rfl⟩
  · rintro ⟨r₁, h₁, r₂, h₂, rfl⟩
    exact ⟨r₁, h₁, r₂, h₂, rfl⟩

/-- What holds of single steps, of standing still and of one route after another holds of
repetitions. -/
theorem repeated_induction {step : Nat → List Route} {P : Nat → Route → Prop}
    (hhere : ∀ i, P i ⟨i, []⟩)
    (hafter : ∀ i r r', P i r → P r.stop r' → P i (r'.after r.spots))
    (hstep : ∀ i, ∀ r ∈ step i, P i r) (fuel : Nat) :
    ∀ i, ∀ r ∈ repeated step fuel i, P i r := by
  induction fuel with
  | zero =>
    intro i r hr
    rw [repeated, List.mem_singleton] at hr
    rw [hr]
    exact hhere i
  | succ fuel ih =>
    intro i r hr
    rw [repeated, List.mem_append, List.mem_singleton] at hr
    rcases hr with hr | rfl
    · obtain ⟨r₁, h₁, r₂, h₂, rfl⟩ := mem_andThen.1 hr
      exact hafter i r₁ r₂ (hstep i r₁ (List.mem_of_mem_filter h₁)) (ih _ r₂ h₂)
    · exact hhere i

theorem fits_repeated {step : Nat → List Route} (hstep : ∀ i, ∀ r ∈ step i, r.Fits text i)
    (fuel : Nat) : ∀ i, ∀ r ∈ repeated step fuel i, r.Fits text i :=
  repeated_induction (fits_here text) (fun _ _ _ h h' => h.after h') hstep fuel

theorem mem_runEnds {set : Char → Bool} {j : Nat} (h : j ∈ runEnds set text i) :
    i ≤ j ∧ (i ≤ text.length → j ≤ text.length) := by
  have hle : ((text.drop i).takeWhile set).length ≤ (text.drop i).length :=
    (List.takeWhile_prefix set).length_le
  rw [List.length_drop] at hle
  rw [runEnds, List.mem_range'_1] at h
  omega

theorem mem_routes_run {set : Char → Bool} {eager : Bool} :
    r ∈ (run set eager).routes text i ↔ ∃ j ∈ runEnds set text i, r = ⟨j, []⟩ := by
  cases eager <;> simp [routes, eq_comm]

theorem fits_of_mem_routes (p : Pattern) (i : Nat) :
    ∀ r ∈ p.routes text i, r.Fits text i := by
  induction p generalizing i with
  | empty =>
    intro r hr
    rw [routes, List.mem_singleton] at hr
    rw [hr]
    exact fits_here text i
  | one set =>
    intro r hr
    rw [routes, List.mem_ite_nil_right, List.mem_singleton] at hr
    obtain ⟨hset, rfl⟩ := hr
    have hi : i < text.length := by
      by_contra hi
      rw [List.getElem?_eq_none (by omega)] at hset
      cases hset
    exact ⟨Nat.le_succ i, fun _ => hi, by simp⟩
  | run set eager =>
    intro r hr
    obtain ⟨j, hj, rfl⟩ := mem_routes_run.1 hr
    exact ⟨(mem_runEnds hj).1, (mem_runEnds hj).2, by simp⟩
  | seq first second ihFirst ihSecond =>
    intro r hr
    obtain ⟨r₁, h₁, r₂, h₂, rfl⟩ := mem_andThen.1 hr
    exact (ihFirst i r₁ h₁).after (ihSecond _ r₂ h₂)
  | alt first second ihFirst ihSecond =>
    intro r hr
    rcases List.mem_append.1 hr with hr | hr
    · exact ihFirst i r hr
    · exact ihSecond i r hr
  | many body ih => exact fits_repeated ih _ i
  | marked mark body ih =>
    intro r hr
    obtain ⟨inner, hinner, rfl⟩ := List.mem_map.1 hr
    have h := ih i inner hinner
    refine ⟨h.le_stop, h.stop_le, fun s hs => ?_⟩
    rcases List.mem_cons.1 hs with rfl | hs
    · exact ⟨Nat.le_refl i, h.le_stop, Nat.le_refl inner.stop⟩
    · exact h.spots s hs
  | lineStart =>
    intro r hr
    rw [routes, List.mem_ite_nil_right, List.mem_singleton] at hr
    rw [hr.2]
    exact fits_here text i
  | wordEdge =>
    intro r hr
    rw [routes, List.mem_ite_nil_right, List.mem_singleton] at hr
    rw [hr.2]
    exact fits_here text i

/-- The set of the last character that a pattern reads, if its last part reads just one. -/
def lastOf : Pattern → Option (Char → Bool)
  | one set => some set
  | marked _ p => p.lastOf
  | seq _ q => q.lastOf
  | _ => none

theorem getElem?_of_lastOf {set : Char → Bool} (hp : p.lastOf = some set)
    (hr : r ∈ p.routes text i) :
    ∃ j c, i ≤ j ∧ r.stop = j + 1 ∧ text[j]? = some c ∧ set c = true := by
  induction p generalizing i r with
  | one set' =>
    obtain rfl : set' = set := Option.some.inj hp
    rw [routes, List.mem_ite_nil_right, List.mem_singleton] at hr
    obtain ⟨c, hc, hset⟩ := (Option.any_eq_true _ _).1 hr.1
    exact ⟨i, c, Nat.le_refl i, by rw [hr.2], hc, hset⟩
  | marked mark p ih =>
    obtain ⟨inner, hinner, rfl⟩ := List.mem_map.1 hr
    exact ih (r := inner) hp hinner
  | seq first second _ ihSecond =>
    obtain ⟨r₁, h₁, r₂, h₂, rfl⟩ := mem_andThen.1 hr
    obtain ⟨j, c, hj, hstop, hc⟩ := ihSecond hp h₂
    exact ⟨j, c, Nat.le_trans (fits_of_mem_routes first i r₁ h₁).le_stop hj, hstop, hc⟩
  | empty | run | alt | many | lineStart | wordEdge => cases hp

end Bounds

/-! ### Scanning for the first routes -/

/-- A route together with its start. -/
structure Hit where
  start : Nat
  route : Route
  deriving DecidableEq, Repr

namespace Hit

/-- The match along a route. -/
def toMatch (text : List Char) (h : Hit) : Match :=
  ⟨h.start, h.route.stop, h.route.spots.map (Spot.capture text)⟩

end Hit

theorem matchAt_place (p : Pattern) (text : List Char) (i : Nat) :
    p.matchAt (place text i) =
      (p.routes text i).head?.map (fun r => Hit.toMatch text ⟨i, r⟩) := by
  rw [matchAt, attempt_eq]
  cases p.routes text i with
  | nil => rfl
  | cons r rest => simp [resume, Hit.toMatch]

/-- The first routes at the given positions, without those before the end of an earlier one or
before position `free`. -/
def hits (p : Pattern) (text : List Char) (free : Nat) : List Nat → List Hit
  | [] => []
  | i :: rest =>
    if i < free then hits p text free rest
    else match (p.routes text i).head? with
      | none => hits p text free rest
      | some r => ⟨i, r⟩ :: hits p text r.stop rest

/-- The first routes of a pattern in a text. -/
def hitsIn (p : Pattern) (text : List Char) : List Hit :=
  hits p text 0 (List.range' 0 (text.length + 1))

theorem scan_place (p : Pattern) (text : List Char) (free i : Nat) (hi : i ≤ text.length) :
    scan p free i (place text i).before (text.drop i) =
      (hits p text free (List.range' i (text.length - i + 1))).map (Hit.toMatch text) := by
  generalize hrest : text.drop i = rest
  have hplace : place text i = ⟨i, (place text i).before, rest⟩ := by rw [← hrest]; rfl
  induction rest generalizing i free with
  | nil =>
    have hlast : text.length - i = 0 := by
      rw [← List.length_drop, hrest]
      rfl
    rw [scan, ← hplace, matchAt_place, hlast, List.range'_one, hits, hits]
    by_cases hfree : i < free
    · rw [if_pos hfree, if_neg (by omega), List.map_nil]
    · rw [if_neg hfree, if_pos (by omega)]
      cases (p.routes text i).head? <;> rfl
  | cons c rest ih =>
    have hc : text[i]? = some c := getElem?_of_drop hrest
    have hrest' : text.drop (i + 1) = rest := by
      rw [drop_of_getElem? hc] at hrest
      exact (List.cons.inj hrest).2
    have hlt : i < text.length := (List.getElem?_eq_some_iff.1 hc).1
    have hbefore : (place text (i + 1)).before = some c := by rw [place_succ hc]
    have hnext : ∀ free, scan p free (i + 1) (some c) rest =
        (hits p text free (List.range' (i + 1) (text.length - i))).map (Hit.toMatch text) := by
      intro free
      rw [← hbefore, ih free (i + 1) hlt hrest' (by rw [← hrest']; rfl)]
      congr 3
      omega
    rw [scan, ← hplace, matchAt_place, List.range'_succ, hits, hnext]
    by_cases hfree : i < free
    · rw [if_pos hfree, if_pos hfree]
    · rw [if_neg hfree, if_neg hfree]
      cases (p.routes text i).head? with
      | none => rfl
      | some r => simp only [Option.map_some, hnext, List.map_cons]; rfl

/-- **The matches of a text are its first routes.** -/
theorem matchesIn_eq (p : Pattern) (text : List Char) :
    p.matchesIn text = (p.hitsIn text).map (Hit.toMatch text) := by
  have h := scan_place p text 0 0 (Nat.zero_le _)
  rw [place_zero, List.drop_zero] at h
  exact h

section Hits

variable {p : Pattern} {text : List Char} {free : Nat} {positions : List Nat} {h : Hit}

/-- What is found starts at one of the positions and is a first route there. -/
theorem head?_routes_of_mem_hits (hmem : h ∈ hits p text free positions) :
    h.start ∈ positions ∧ free ≤ h.start ∧ (p.routes text h.start).head? = some h.route := by
  induction positions generalizing free with
  | nil => cases hmem
  | cons i rest ih =>
    rw [hits] at hmem
    split_ifs at hmem with hfree
    · have := ih hmem
      exact ⟨List.mem_cons_of_mem i this.1, this.2⟩
    · cases hr : (p.routes text i).head? with
      | none =>
        rw [hr] at hmem
        have := ih hmem
        exact ⟨List.mem_cons_of_mem i this.1, this.2⟩
      | some r =>
        rw [hr] at hmem
        rcases List.mem_cons.1 hmem with rfl | hmem
        · exact ⟨List.mem_cons_self, Nat.le_of_not_lt hfree, hr⟩
        · have hle := (fits_of_mem_routes p i r (List.mem_of_head? hr)).le_stop
          have := ih hmem
          exact ⟨List.mem_cons_of_mem i this.1, by omega, this.2.2⟩

theorem pairwise_hits (hpos : positions.Pairwise (· < ·)) :
    (hits p text free positions).Pairwise
      (fun a b => a.start < b.start ∧ a.route.stop ≤ b.start) := by
  induction positions generalizing free with
  | nil => exact List.Pairwise.nil
  | cons i rest ih =>
    rw [List.pairwise_cons] at hpos
    rw [hits]
    split_ifs with hfree
    · exact ih hpos.2
    · split
      · exact ih hpos.2
      · refine List.pairwise_cons.2 ⟨fun b hb => ?_, ih hpos.2⟩
        have hb' := head?_routes_of_mem_hits hb
        exact ⟨hpos.1 _ hb'.1, hb'.2.1⟩

theorem mem_routes_of_mem_hitsIn (hmem : h ∈ p.hitsIn text) :
    h.start ≤ text.length ∧ h.route ∈ p.routes text h.start := by
  obtain ⟨hpos, _, hhead⟩ := head?_routes_of_mem_hits hmem
  rw [List.mem_range'_1] at hpos
  exact ⟨by omega, List.mem_of_head? hhead⟩

theorem pairwise_hitsIn (p : Pattern) (text : List Char) :
    (p.hitsIn text).Pairwise (fun a b => a.start < b.start ∧ a.route.stop ≤ b.start) :=
  pairwise_hits List.pairwise_lt_range'

end Hits

end Pattern

/-! ### Matches -/

namespace Match

open Pattern

variable {text : List Char} {m : Match} {mark : Mark} {c : Capture}

/-- A match that lies in a text with all that it remembers. -/
structure Fits (text : List Char) (m : Match) : Prop where
  start_le : m.start ≤ m.stop
  stop_le : m.stop ≤ text.length
  capture : ∀ {mark c}, m.get? mark = some c →
    m.start ≤ c.start ∧ c.start ≤ c.stop ∧ c.stop ≤ m.stop ∧ c.source = text.drop c.start

theorem get?_toMatch (text : List Char) (h : Hit) (mark : Mark) :
    (h.toMatch text).get? mark =
      (h.route.spots.find? (·.mark == mark)).map (fun s => (s.capture text).2) := by
  unfold get? Hit.toMatch
  induction h.route.spots with
  | nil => rfl
  | cons s rest ih =>
    have hcons : (s :: rest).map (Spot.capture text) =
        (s.mark, (s.capture text).2) :: rest.map (Spot.capture text) := rfl
    rw [hcons, List.lookup_cons, List.find?_cons, Bool.beq_comm (a := s.mark), ih]
    cases mark == s.mark <;> rfl

theorem fits_toMatch {h : Hit} (hstart : h.start ≤ text.length)
    (hroute : h.route.Fits text h.start) : (h.toMatch text).Fits text where
  start_le := hroute.le_stop
  stop_le := hroute.stop_le hstart
  capture := by
    intro mark c hc
    rw [get?_toMatch, Option.map_eq_some_iff] at hc
    obtain ⟨s, hs, rfl⟩ := hc
    have := hroute.spots s (List.mem_of_find?_eq_some hs)
    exact ⟨this.1, this.2.1, this.2.2, rfl⟩

/-- **Matches lie in their text** with all that they remember. -/
theorem fits_of_mem {p : Pattern} (h : m ∈ p.matchesIn text) : m.Fits text := by
  rw [matchesIn_eq, List.mem_map] at h
  obtain ⟨hit, hmem, rfl⟩ := h
  obtain ⟨hstart, hroute⟩ := mem_routes_of_mem_hitsIn hmem
  exact fits_toMatch hstart (fits_of_mem_routes p _ _ hroute)

/-- The last character of a match. -/
theorem getElem?_stop_of_mem {p : Pattern} {set : Char → Bool} (hp : p.lastOf = some set)
    (h : m ∈ p.matchesIn text) :
    ∃ c, m.start < m.stop ∧ text[m.stop - 1]? = some c ∧ set c = true := by
  rw [matchesIn_eq, List.mem_map] at h
  obtain ⟨hit, hmem, rfl⟩ := h
  obtain ⟨j, c, hj, hstop, hc, hset⟩ :=
    getElem?_of_lastOf hp (mem_routes_of_mem_hitsIn hmem).2
  have hstop' : (hit.toMatch text).stop = j + 1 := hstop
  rw [hstop', Nat.add_sub_cancel]
  exact ⟨c, Nat.lt_succ_of_le hj, hc, hset⟩

/-- **Matches do not overlap** and come from left to right. -/
theorem pairwise_matchesIn (p : Pattern) (text : List Char) :
    (p.matchesIn text).Pairwise (fun a b => a.start < b.start ∧ a.stop ≤ b.start) := by
  rw [matchesIn_eq, List.pairwise_map]
  exact pairwise_hitsIn p text

end Match

end Lineage
