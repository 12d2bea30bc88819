import Lineage.Proofs.Routes

/-!
# Matching in parts of a text

A route depends on the characters it reads and on those next to its anchors, and on nothing else.
So the routes in the first part of a text are those of the text that end there (`routes_take`), and
the routes in the rest are those of the text, moved (`routes_drop`).

A place that no match goes on over parts the matches into those before it and those after it, where
the search starts afresh.  Two such places part them into three (`hitsIn_cut`).  For a pattern
without anchors, to occur in a part of a text is to have a route there (`occursIn_part_iff`).  If it
reads its first character nowhere else, and its last one too, the routes belong to matches
(`Delimited.exists_match`).
-/

namespace Lineage.Pattern

open Cursor

/-- Whether a pattern looks at the characters around a place. -/
def anchored : Pattern → Bool
  | lineStart | wordEdge => true
  | seq p q | alt p q => p.anchored || q.anchored
  | many p | marked _ p => p.anchored
  | empty | one _ | run _ _ => false

/-! ### Moving routes -/

/-- A spot at other positions. -/
def Spot.move (f : Nat → Nat) (s : Spot) : Spot :=
  ⟨s.mark, f s.start, f s.stop⟩

/-- A route at other positions. -/
def Route.move (f : Nat → Nat) (r : Route) : Route :=
  ⟨f r.stop, r.spots.map (Spot.move f)⟩

/-- A hit at other positions. -/
def Hit.move (f : Nat → Nat) (h : Hit) : Hit :=
  ⟨f h.start, h.route.move f⟩

theorem Route.move_after (f : Nat → Nat) (spots : List Spot) (r : Route) :
    (r.after spots).move f = (r.move f).after (spots.map (Spot.move f)) := by
  simp [Route.move, Route.after]

theorem Hit.move_move (f g : Nat → Nat) (h : Hit) : (h.move f).move g = h.move (g ∘ f) := by
  simp [Hit.move, Route.move, Spot.move, Function.comp_def]

/-- Only the positions of a hit matter to where it is moved. -/
theorem Hit.move_congr {text : List Char} {f g : Nat → Nat} {h : Hit}
    (hfits : h.route.Fits text h.start)
    (hfg : ∀ i, h.start ≤ i → i ≤ h.route.stop → f i = g i) : h.move f = h.move g := by
  have hle := hfits.le_stop
  have hspots : h.route.spots.map (Spot.move f) = h.route.spots.map (Spot.move g) := by
    refine List.map_congr_left (fun s hs => ?_)
    have := hfits.spots s hs
    rw [Spot.move, Spot.move, hfg s.start (by omega) (by omega), hfg s.stop (by omega) (by omega)]
  rw [Hit.move, Hit.move, Route.move, Route.move, hfg h.start (by omega) (by omega),
    hfg h.route.stop (by omega) (by omega), hspots]

theorem Hit.move_id (h : Hit) : h.move id = h := by
  have hspot : Spot.move id = id := rfl
  rw [Hit.move, Route.move, hspot, List.map_id]
  rfl

/-! ### The first part of a text -/

section Take

variable {text : List Char} {n i : Nat} {first : List Route} {step second : Nat → List Route}

theorem andThen_congr {second' : Nat → List Route}
    (h : ∀ r ∈ first, second r.stop = second' r.stop) :
    andThen first second = andThen first second' := by
  unfold andThen
  induction first with
  | nil => rfl
  | cons r first ih =>
    rw [List.flatMap_cons, List.flatMap_cons, h r List.mem_cons_self,
      ih (fun r' hr' => h r' (List.mem_cons_of_mem r hr'))]

theorem filter_andThen (h : ∀ j, ∀ r ∈ second j, j ≤ r.stop) (first : List Route) (n : Nat) :
    (andThen first second).filter (·.stop ≤ n) =
      andThen (first.filter (·.stop ≤ n)) (fun j => (second j).filter (·.stop ≤ n)) := by
  unfold andThen
  induction first with
  | nil => rfl
  | cons r first ih =>
    have hafter : ((second r.stop).map (Route.after r.spots)).filter (·.stop ≤ n) =
        ((second r.stop).filter (·.stop ≤ n)).map (Route.after r.spots) := List.filter_map
    rw [List.flatMap_cons, List.filter_append, ih, hafter]
    by_cases hr : r.stop ≤ n
    · rw [List.filter_cons_of_pos (by simpa using hr), List.flatMap_cons]
    · -- what goes on from beyond `n` ends beyond `n`
      have hnone : (second r.stop).filter (·.stop ≤ n) = [] := by
        refine List.filter_eq_nil_iff.2 (fun r' hr' => ?_)
        have := h _ r' hr'
        rw [decide_eq_true_eq]
        omega
      rw [List.filter_cons_of_neg (by simpa using hr), hnone]
      rfl

theorem filter_repeated {step' : Nat → List Route} (hstep : ∀ j, ∀ r ∈ step j, r.Fits text j)
    (h : ∀ j ≤ n, step' j = (step j).filter (·.stop ≤ n)) (fuel : Nat) (hi : i ≤ n) :
    (repeated step fuel i).filter (·.stop ≤ n) = repeated step' fuel i := by
  induction fuel generalizing i with
  | zero => simp [repeated, hi]
  | succ fuel ih =>
    have hfirst : ((step i).filter (fun r => i < r.stop)).filter (·.stop ≤ n) =
        (step' i).filter (fun r => i < r.stop) := by
      rw [h i hi, List.filter_filter, List.filter_filter]
      exact List.filter_congr (fun r _ => Bool.and_comm _ _)
    rw [repeated, repeated, List.filter_append,
      filter_andThen (fun j r hr => (fits_repeated hstep fuel j r hr).le_stop), hfirst]
    congr 1
    · refine andThen_congr (fun r hr => ih ?_)
      have hmem := List.mem_of_mem_filter hr
      rw [h i hi, List.mem_filter, decide_eq_true_eq] at hmem
      exact hmem.2
    · simp [hi]

/-- At the end there is nothing to repeat. -/
theorem repeated_at_end (hstep : ∀ r ∈ step i, r.stop ≤ i) (fuel : Nat) :
    repeated step fuel i = [⟨i, []⟩] := by
  cases fuel with
  | zero => rfl
  | succ fuel =>
    have hnone : (step i).filter (fun r => i < r.stop) = [] := by
      refine List.filter_eq_nil_iff.2 (fun r hr => ?_)
      have := hstep r hr
      rw [decide_eq_true_eq]
      omega
    rw [repeated, hnone]
    rfl

/-- Each step reads something, so there is no need for more steps than characters. -/
theorem repeated_congr (hstep : ∀ j ≤ n, ∀ r ∈ step j, r.stop ≤ n) {fuel fuel' : Nat}
    (hi : i ≤ n) (hfuel : n - i ≤ fuel) (hfuel' : n - i ≤ fuel') :
    repeated step fuel i = repeated step fuel' i := by
  induction fuel generalizing i fuel' with
  | zero =>
    obtain rfl : i = n := by omega
    rw [repeated_at_end (hstep i hi), repeated_at_end (hstep i hi)]
  | succ fuel ih =>
    cases fuel' with
    | zero =>
      obtain rfl : i = n := by omega
      rw [repeated_at_end (hstep i hi), repeated_at_end (hstep i hi)]
    | succ fuel' =>
      rw [repeated, repeated]
      congr 1
      refine andThen_congr (fun r hr => ?_)
      rw [List.mem_filter, decide_eq_true_eq] at hr
      exact ih (hstep i hi r hr.1) (by omega) (by omega)

theorem length_takeWhile_take (set : Char → Bool) (k : Nat) (text : List Char) :
    ((text.take k).takeWhile set).length = min k (text.takeWhile set).length := by
  induction text generalizing k with
  | nil => simp
  | cons c rest ih =>
    cases k with
    | zero => simp
    | succ k =>
      rw [List.take_succ_cons]
      by_cases hc : set c = true
      · rw [List.takeWhile_cons_of_pos hc, List.takeWhile_cons_of_pos hc, List.length_cons,
          List.length_cons, ih]
        omega
      · rw [List.takeWhile_cons_of_neg hc, List.takeWhile_cons_of_neg hc]
        rfl

theorem filter_range' (i length n : Nat) (hi : i ≤ n) :
    (List.range' i (length + 1)).filter (· ≤ n) = List.range' i (min (n - i) length + 1) := by
  by_cases hlength : length ≤ n - i
  · rw [Nat.min_eq_right hlength, List.filter_eq_self]
    intro j hj
    rw [List.mem_range'_1] at hj
    rw [decide_eq_true_eq]
    omega
  · have hsplit : List.range' i (length + 1) =
        List.range' i (n - i + 1) ++ List.range' (i + (n - i + 1)) (length - (n - i)) := by
      rw [List.range'_append_1]
      congr 1
      omega
    rw [hsplit, List.filter_append, List.filter_eq_self.2, List.filter_eq_nil_iff.2,
      List.append_nil, Nat.min_eq_left (by omega)]
    · intro j hj
      rw [List.mem_range'_1] at hj
      rw [decide_eq_true_eq]
      omega
    · intro j hj
      rw [List.mem_range'_1] at hj
      rw [decide_eq_true_eq]
      omega

theorem runEnds_take (set : Char → Bool) (hi : i ≤ n) :
    runEnds set (text.take n) i = (runEnds set text i).filter (· ≤ n) := by
  rw [runEnds, runEnds, filter_range' _ _ _ hi, List.drop_take, length_takeWhile_take]

/-- **Routes in the first part of a text** are those of the text that end there, if no word goes on
after it. -/
theorem routes_take (p : Pattern) (hn : n ≤ text.length)
    (hword : p.anchored = true → text[n]?.any Text.isWord = false) (hi : i ≤ n) :
    p.routes (text.take n) i = (p.routes text i).filter (·.stop ≤ n) := by
  have hlength : (text.take n).length = n := List.length_take_of_le hn
  have htake : ∀ j ≤ n, (text.take n).take j = text.take j := by
    intro j hj
    rw [List.take_take, Nat.min_eq_left hj]
  induction p generalizing i with
  | empty => simp [routes, hi]
  | one set =>
    rw [routes, routes]
    obtain hlt | rfl := Nat.lt_or_eq_of_le hi
    · rw [List.getElem?_take_of_lt hlt]
      split_ifs
      · have hstop : i + 1 ≤ n := hlt
        simp [hstop]
      · rfl
    · rw [List.getElem?_eq_none (Nat.le_of_eq hlength), Option.any_none,
        if_neg Bool.false_ne_true]
      split_ifs
      · rw [List.filter_cons_of_neg (by simp)]
        rfl
      · rfl
  | run set eager =>
    rw [routes, routes, runEnds_take set hi]
    cases eager with
    | true =>
      rw [if_pos rfl, if_pos rfl, ← List.filter_reverse, List.filter_map]
      rfl
    | false =>
      rw [if_neg Bool.false_ne_true, if_neg Bool.false_ne_true, List.filter_map]
      rfl
  | seq first second ihFirst ihSecond =>
    rw [anchored, Bool.or_eq_true] at hword
    rw [routes, routes, ihFirst (fun h => hword (Or.inl h)) hi,
      filter_andThen (fun j r hr => (fits_of_mem_routes second j r hr).le_stop)]
    refine andThen_congr (fun r hr => ihSecond (fun h => hword (Or.inr h)) ?_)
    rw [List.mem_filter, decide_eq_true_eq] at hr
    exact hr.2
  | alt first second ihFirst ihSecond =>
    rw [anchored, Bool.or_eq_true] at hword
    rw [routes, routes, ihFirst (fun h => hword (Or.inl h)) hi,
      ihSecond (fun h => hword (Or.inr h)) hi, List.filter_append]
  | many body ih =>
    have hbody := fun j (hj : j ≤ n) => ih hword hj
    rw [routes, routes, filter_repeated (fits_of_mem_routes body) hbody _ hi, hlength]
    -- the fuel is the length of each text, but no more than `n - i` steps are possible
    refine repeated_congr (fun j hj r hr => ?_) hi (Nat.le_refl _) (by omega)
    have := (fits_of_mem_routes body j r hr).stop_le (by omega)
    omega
  | marked mark body ih =>
    rw [routes, routes, ih hword hi, List.filter_map]
    rfl
  | lineStart =>
    have hplace : (place (text.take n) i).atLineStart = (place text i).atLineStart := by
      rw [atLineStart, atLineStart, place, place, htake i hi]
    rw [routes, routes, hplace]
    split_ifs
    · simp [hi]
    · rfl
  | wordEdge =>
    have hplace : (place (text.take n) i).atWordEdge = (place text i).atWordEdge := by
      rw [atWordEdge, atWordEdge, place, place, htake i hi]
      dsimp only
      rw [List.head?_drop, List.head?_drop]
      obtain hlt | rfl := Nat.lt_or_eq_of_le hi
      · rw [List.getElem?_take_of_lt hlt]
      · rw [List.getElem?_eq_none (Nat.le_of_eq hlength), hword rfl]
        rfl
    rw [routes, routes, hplace]
    split_ifs
    · simp [hi]
    · rfl

end Take

/-! ### The rest of a text -/

section Drop

variable {text : List Char} {m i : Nat}

theorem andThen_move {first : List Route} {second second' : Nat → List Route}
    (h : ∀ j, second' (m + j) = (second j).map (Route.move (m + ·))) :
    andThen (first.map (Route.move (m + ·))) second' =
      (andThen first second).map (Route.move (m + ·)) := by
  unfold andThen
  induction first with
  | nil => rfl
  | cons r first ih =>
    have hr : second' (r.move (m + ·)).stop = (second r.stop).map (Route.move (m + ·)) := h r.stop
    rw [List.map_cons, List.flatMap_cons, List.flatMap_cons, List.map_append, ih, hr,
      List.map_map, List.map_map]
    congr 2
    funext r'
    exact (Route.move_after _ _ _).symm

theorem repeated_move {step step' : Nat → List Route}
    (h : ∀ j, step' (m + j) = (step j).map (Route.move (m + ·))) (fuel i : Nat) :
    repeated step' fuel (m + i) = (repeated step fuel i).map (Route.move (m + ·)) := by
  induction fuel generalizing i with
  | zero => rfl
  | succ fuel ih =>
    have hfirst : (step' (m + i)).filter (fun r => m + i < r.stop) =
        ((step i).filter (fun r => i < r.stop)).map (Route.move (m + ·)) := by
      rw [h i, List.filter_map]
      congr 1
      refine List.filter_congr (fun r _ => ?_)
      simp [Route.move]
    rw [repeated, repeated, hfirst, andThen_move ih, List.map_append]
    rfl

theorem runEnds_drop (set : Char → Bool) (text : List Char) (m i : Nat) :
    runEnds set text (m + i) = (runEnds set (text.drop m) i).map (m + ·) := by
  rw [runEnds, runEnds, List.drop_drop, List.map_add_range']

theorem before_place_add (text : List Char) (m i : Nat) :
    (place text (m + i)).before = (place (text.drop m) i).before.or (place text m).before := by
  rw [place, place, place]
  dsimp only
  rw [List.take_add, List.getLast?_append]

/-- **Routes in the rest of a text** are those of the text, if it starts with a line. -/
theorem routes_drop (p : Pattern) (hline : p.anchored = true → (place text m).atLineStart = true)
    (i : Nat) :
    p.routes text (m + i) = (p.routes (text.drop m) i).map (Route.move (m + ·)) := by
  induction p generalizing i with
  | empty => rfl
  | one set =>
    rw [routes, routes, List.getElem?_drop]
    split_ifs <;> rfl
  | run set eager =>
    rw [routes, routes, runEnds_drop]
    cases eager with
    | true =>
      rw [if_pos rfl, if_pos rfl, ← List.map_reverse, List.map_map, List.map_map]
      rfl
    | false =>
      rw [if_neg Bool.false_ne_true, if_neg Bool.false_ne_true, List.map_map, List.map_map]
      rfl
  | seq first second ihFirst ihSecond =>
    rw [anchored, Bool.or_eq_true] at hline
    rw [routes, routes, ihFirst (fun h => hline (Or.inl h)),
      andThen_move (ihSecond (fun h => hline (Or.inr h)))]
  | alt first second ihFirst ihSecond =>
    rw [anchored, Bool.or_eq_true] at hline
    rw [routes, routes, ihFirst (fun h => hline (Or.inl h)),
      ihSecond (fun h => hline (Or.inr h)), List.map_append]
  | many body ih =>
    rw [routes, routes, repeated_move (ih hline), List.length_drop, Nat.sub_add_eq]
  | marked mark body ih =>
    rw [routes, routes, ih hline, List.map_map, List.map_map]
    rfl
  | lineStart =>
    have hplace : (place text (m + i)).atLineStart = (place (text.drop m) i).atLineStart := by
      have hstart := hline rfl
      rw [atLineStart] at hstart
      rw [atLineStart, atLineStart, before_place_add]
      cases (place (text.drop m) i).before with
      | some c => rfl
      | none => exact hstart
    rw [routes, routes, hplace]
    split_ifs <;> rfl
  | wordEdge =>
    have hplace : (place text (m + i)).atWordEdge = (place (text.drop m) i).atWordEdge := by
      have hstart := hline rfl
      rw [atLineStart] at hstart
      rw [atWordEdge, atWordEdge, before_place_add, rest_place, rest_place, List.drop_drop]
      congr 1
      cases (place (text.drop m) i).before with
      | some c => rfl
      | none =>
        -- neither the start of a text nor a newline is part of a word
        cases hbefore : (place text m).before with
        | none => rfl
        | some c =>
          rw [hbefore] at hstart
          obtain rfl := beq_iff_eq.1 hstart
          decide +kernel
    rw [routes, routes, hplace]
    split_ifs <;> rfl

end Drop

/-! ### Hits in parts of a text -/

section Parts

variable {p : Pattern} {text : List Char} {free m n : Nat} {positions : List Nat}

/-- Later positions go on from where the hits before them end. -/
theorem exists_hits_append (p : Pattern) (text : List Char) (free : Nat)
    (positions more : List Nat) :
    ∃ free', hits p text free (positions ++ more) =
        hits p text free positions ++ hits p text free' more ∧
      ∀ bound, free ≤ bound → (∀ h ∈ hits p text free positions, h.route.stop ≤ bound) →
        free' ≤ bound := by
  induction positions generalizing free with
  | nil => exact ⟨free, rfl, fun bound hfree _ => hfree⟩
  | cons i rest ih =>
    rw [List.cons_append, hits, hits]
    split_ifs with hi
    · exact ih free
    · cases hr : (p.routes text i).head? with
      | none => exact ih free
      | some r =>
        obtain ⟨free', hhits, hbound⟩ := ih r.stop
        refine ⟨free', by simp [hhits], fun bound _ hstops => hbound bound ?_ ?_⟩
        · exact hstops ⟨i, r⟩ List.mem_cons_self
        · exact fun h hmem => hstops h (List.mem_cons_of_mem _ hmem)

theorem hits_of_le (h : ∀ i ∈ positions, free ≤ i) :
    hits p text free positions = hits p text 0 positions := by
  induction positions with
  | nil => rfl
  | cons i rest ih =>
    have hi := h i List.mem_cons_self
    rw [hits, hits, if_neg (by omega), if_neg (by omega),
      ih (fun j hj => h j (List.mem_cons_of_mem i hj))]

theorem hits_take (hn : n ≤ text.length)
    (hword : p.anchored = true → text[n]?.any Text.isWord = false)
    (hpositions : ∀ i ∈ positions, i ≤ n)
    (hstop : ∀ h ∈ hits p text free positions, h.route.stop ≤ n) :
    hits p (text.take n) free positions = hits p text free positions := by
  induction positions generalizing free with
  | nil => rfl
  | cons i rest ih =>
    have hrest := fun j hj => hpositions j (List.mem_cons_of_mem i hj)
    rw [hits] at hstop
    rw [hits, hits, routes_take p hn hword (hpositions i List.mem_cons_self)]
    split_ifs with hi
    · rw [if_pos hi] at hstop
      exact ih hrest hstop
    · rw [if_neg hi] at hstop
      cases hroutes : p.routes text i with
      | nil =>
        rw [hroutes] at hstop
        exact ih hrest hstop
      | cons r routes =>
        -- the first route ends in the part, so it is the first there
        rw [hroutes] at hstop
        have hr : r.stop ≤ n := hstop ⟨i, r⟩ List.mem_cons_self
        rw [List.filter_cons_of_pos (by simpa using hr)]
        exact congrArg _ (ih hrest (fun h hmem => hstop h (List.mem_cons_of_mem _ hmem)))

theorem hits_drop (hline : p.anchored = true → (place text m).atLineStart = true)
    (free : Nat) (positions : List Nat) :
    hits p text (m + free) (positions.map (m + ·)) =
      (hits p (text.drop m) free positions).map (Hit.move (m + ·)) := by
  induction positions generalizing free with
  | nil => rfl
  | cons i rest ih =>
    rw [List.map_cons, hits, hits, routes_drop p hline, List.head?_map]
    by_cases hi : i < free
    · rw [if_pos hi, if_pos (by omega), ih]
    · rw [if_neg hi, if_neg (by omega)]
      cases (p.routes (text.drop m) i).head? with
      | none => exact ih free
      | some r => exact congrArg _ (ih r.stop)

/-- At a place that cuts no hit the search starts afresh. -/
theorem hits_cut (p : Pattern) (text : List Char) {free : Nat} (i a b : Nat) (hfree : free ≤ i + a)
    (hcut : ∀ h ∈ hits p text free (List.range' i (a + b)),
      h.route.stop ≤ i + a ∨ i + a ≤ h.start) :
    hits p text free (List.range' i (a + b)) =
        hits p text free (List.range' i a) ++ hits p text (i + a) (List.range' (i + a) b) ∧
      ∀ h ∈ hits p text free (List.range' i a), h.route.stop ≤ i + a := by
  obtain ⟨free', hsplit, hbound⟩ :=
    exists_hits_append p text free (List.range' i a) (List.range' (i + a) b)
  rw [List.range'_append_1] at hsplit
  have hstops : ∀ h ∈ hits p text free (List.range' i a), h.route.stop ≤ i + a := by
    intro h hmem
    have hstart := List.mem_range'_1.1 (head?_routes_of_mem_hits hmem).1
    have haside := hcut h (by rw [hsplit]; exact List.mem_append_left _ hmem)
    omega
  have hlast : ∀ j ∈ List.range' (i + a) b, i + a ≤ j := fun j hj => (List.mem_range'_1.1 hj).1
  refine ⟨?_, hstops⟩
  rw [hsplit, hits_of_le hlast,
    hits_of_le fun j hj => Nat.le_trans (hbound _ hfree hstops) (hlast j hj)]

/-- No match of a pattern in a text goes on over a place. -/
def Uncut (p : Pattern) (text : List Char) (n : Nat) : Prop :=
  ∀ m ∈ p.matchesIn text, m.stop ≤ n ∨ n ≤ m.start

instance (p : Pattern) (text : List Char) (n : Nat) : Decidable (p.Uncut text n) :=
  inferInstanceAs (Decidable (∀ m ∈ p.matchesIn text, _))

theorem Uncut.of_mem (h : p.Uncut text n) {hit : Hit} (hmem : hit ∈ p.hitsIn text) :
    hit.route.stop ≤ n ∨ n ≤ hit.start := by
  refine h (hit.toMatch text) ?_
  rw [matchesIn_eq]
  exact List.mem_map_of_mem hmem

/-- The hits that start between two places. -/
def hitsBetween (p : Pattern) (text : List Char) (start stop : Nat) : List Hit :=
  (p.hitsIn text).filter (fun h => start ≤ h.start && h.start < stop)

/-- The matches that start between two places. -/
def matchesBetween (p : Pattern) (text : List Char) (start stop : Nat) : List Match :=
  (p.matchesIn text).filter (fun m => start ≤ m.start && m.start < stop)

theorem matchesBetween_eq (p : Pattern) (text : List Char) (start stop : Nat) :
    p.matchesBetween text start stop = (p.hitsBetween text start stop).map (Hit.toMatch text) := by
  rw [matchesBetween, matchesIn_eq, List.filter_map]
  rfl

/-- **Two places that cut no match** part the matches into three. -/
theorem hitsIn_cut (hmn : m ≤ n) (hn : n ≤ text.length) (hleft : p.Uncut text m)
    (hright : p.Uncut text n) :
    p.hitsIn text = hits p text 0 (List.range' 0 m) ++ (p.hitsBetween text m n ++
        hits p text n (List.range' n (text.length - n + 1))) ∧
      ∀ h ∈ hits p text 0 (List.range' 0 m), h.route.stop ≤ m := by
  obtain ⟨a, rfl⟩ := Nat.exists_eq_add_of_le hmn
  have hall : text.length + 1 = m + (a + (text.length - (m + a) + 1)) := by omega
  have hsplit : p.hitsIn text =
      hits p text 0 (List.range' 0 (m + (a + (text.length - (m + a) + 1)))) := by
    rw [hitsIn, hall]
  obtain ⟨hfirst, hstops⟩ := hits_cut p text 0 m (a + (text.length - (m + a) + 1))
    (Nat.zero_le _) (fun h hmem => by
      rw [Nat.zero_add]
      exact hleft.of_mem (by rwa [hsplit]))
  rw [Nat.zero_add] at hfirst hstops
  obtain ⟨hrest, -⟩ := hits_cut p text m a (text.length - (m + a) + 1)
    (Nat.le_add_right _ _) (fun h hmem => by
      refine hright.of_mem ?_
      rw [hsplit, hfirst]
      exact List.mem_append_right _ hmem)
  rw [hfirst, hrest] at hsplit
  refine ⟨?_, hstops⟩
  -- the three parts are told apart by where their hits start
  have hfilter : p.hitsBetween text m (m + a) = hits p text m (List.range' m a) := by
    rw [hitsBetween, hsplit, List.filter_append, List.filter_append,
      List.filter_eq_nil_iff.2, List.nil_append, List.filter_eq_self.2,
      List.filter_eq_nil_iff.2, List.append_nil]
    · intro h hmem
      have hstart := List.mem_range'_1.1 (head?_routes_of_mem_hits hmem).1
      simp [hstart.1]
    · intro h hmem
      have hstart := List.mem_range'_1.1 (head?_routes_of_mem_hits hmem).1
      simp only [Bool.and_eq_true, decide_eq_true_eq]
      omega
    · intro h hmem
      have hstart := List.mem_range'_1.1 (head?_routes_of_mem_hits hmem).1
      simp only [Bool.and_eq_true, decide_eq_true_eq]
      omega
  rw [hfilter]
  exact hsplit

end Parts

/-! ### Occurrences -/

section Occurs

variable {p q : Pattern} {text : List Char} {i j : Nat} {r r' : Route} {c : Char}

/-- A route belongs to a hit or starts inside one. -/
theorem exists_hit_of_mem {free : Nat} {positions : List Nat}
    (hsorted : positions.Pairwise (· < ·)) (hi : i ∈ positions) (hr : r ∈ p.routes text i) :
    i < free ∨ ∃ h ∈ hits p text free positions,
      h.start ≤ i ∧ (h.start = i ∨ i < h.route.stop) := by
  induction positions generalizing free with
  | nil => cases hi
  | cons k rest ih =>
    rw [List.pairwise_cons] at hsorted
    rw [hits]
    split_ifs with hk
    · rcases List.mem_cons.1 hi with rfl | hi
      · exact Or.inl hk
      · exact ih hsorted.2 hi
    · cases hroutes : p.routes text k with
      | nil =>
        rcases List.mem_cons.1 hi with rfl | hi
        · rw [hroutes] at hr
          cases hr
        · exact ih hsorted.2 hi
      | cons first others =>
        refine Or.inr ?_
        rcases List.mem_cons.1 hi with rfl | hi
        · exact ⟨⟨i, first⟩, List.mem_cons_self, Nat.le_refl i, Or.inl rfl⟩
        · have hnext : i < first.stop ∨ ∃ h ∈ hits p text first.stop rest,
              h.start ≤ i ∧ (h.start = i ∨ i < h.route.stop) := ih hsorted.2 hi
          rcases hnext with hlt | ⟨h, hmem, hle⟩
          · exact ⟨⟨k, first⟩, List.mem_cons_self, Nat.le_of_lt (hsorted.1 i hi), Or.inr hlt⟩
          · exact ⟨h, List.mem_cons_of_mem _ hmem, hle⟩

theorem exists_hitIn_of_mem (hi : i ≤ text.length) (hr : r ∈ p.routes text i) :
    ∃ h ∈ p.hitsIn text, h.start ≤ i ∧ (h.start = i ∨ i < h.route.stop) :=
  (exists_hit_of_mem List.pairwise_lt_range' (List.mem_range'_1.2 (by omega)) hr).resolve_left
    (Nat.not_lt_zero i)

theorem occursIn_iff (p : Pattern) (text : List Char) :
    p.occursIn text = true ↔ ∃ i ≤ text.length, ∃ r, r ∈ p.routes text i := by
  have hempty : p.occursIn text = true ↔ p.hitsIn text ≠ [] := by
    rw [occursIn, matchesIn_eq, Bool.not_eq_true', List.isEmpty_eq_false_iff, ne_eq,
      List.map_eq_nil_iff]
  rw [hempty]
  constructor
  · intro hne
    obtain ⟨h, hmem⟩ := List.exists_mem_of_ne_nil _ hne
    exact ⟨h.start, (mem_routes_of_mem_hitsIn hmem).1, h.route, (mem_routes_of_mem_hitsIn hmem).2⟩
  · rintro ⟨i, hi, r, hr⟩ hnil
    obtain ⟨h, hmem, _⟩ := exists_hitIn_of_mem hi hr
    rw [hnil] at hmem
    cases hmem

/-- A pattern without anchors occurs in a part of a text if it has a route there. -/
theorem occursIn_part_iff (hp : p.anchored = false) {start length : Nat}
    (h : start + length ≤ text.length) :
    p.occursIn ((text.drop start).take length) = true ↔
      ∃ i r, start ≤ i ∧ r ∈ p.routes text i ∧ r.stop ≤ start + length := by
  have hnot : ¬ p.anchored = true := by
    rw [hp]
    exact Bool.false_ne_true
  have hlength : length ≤ (text.drop start).length := by
    rw [List.length_drop]
    omega
  have htake : ∀ i ≤ length, p.routes ((text.drop start).take length) i =
      (p.routes (text.drop start) i).filter (·.stop ≤ length) :=
    fun i hi => routes_take p hlength (fun h => absurd h hnot) hi
  have hdrop : ∀ i, p.routes text (start + i) =
      (p.routes (text.drop start) i).map (Route.move (start + ·)) :=
    routes_drop p (fun h => absurd h hnot)
  rw [occursIn_iff, List.length_take_of_le hlength]
  constructor
  · rintro ⟨i, hi, r, hr⟩
    rw [htake i hi, List.mem_filter, decide_eq_true_eq] at hr
    refine ⟨start + i, r.move (start + ·), Nat.le_add_right _ _, ?_, Nat.add_le_add_left hr.2 _⟩
    rw [hdrop]
    exact List.mem_map_of_mem hr.1
  · rintro ⟨i, r, hi, hr, hstop⟩
    obtain ⟨k, rfl⟩ := Nat.exists_eq_add_of_le hi
    rw [hdrop] at hr
    obtain ⟨r', hr', rfl⟩ := List.mem_map.1 hr
    have hle : r'.stop ≤ length := Nat.le_of_add_le_add_left hstop
    have hk := (fits_of_mem_routes p k r' hr').le_stop
    refine ⟨k, by omega, r', ?_⟩
    rw [htake k (by omega), List.mem_filter, decide_eq_true_eq]
    exact ⟨hr', hle⟩

/-! ### Patterns between two characters -/

/-- Whether a pattern never reads a character. -/
def avoids (c : Char) : Pattern → Bool
  | one set | run set _ => !set c
  | seq p q | alt p q => p.avoids c && q.avoids c
  | many p | marked _ p => p.avoids c
  | empty | lineStart | wordEdge => true

/-- Whether a pattern never reads a character but perhaps as its last one. -/
def avoidsBefore (c : Char) : Pattern → Bool
  | one _ => true
  | seq p q => p.avoids c && q.avoidsBefore c
  | p => p.avoids c

theorem getElem?_of_mem_runEnds {set : Char → Bool} {k : Nat} (hk : k ∈ runEnds set text i)
    (hij : i ≤ j) (hjk : j < k) : ∃ x, text[j]? = some x ∧ set x = true := by
  rw [runEnds, List.mem_range'_1] at hk
  have hlt : j - i < ((text.drop i).takeWhile set).length := by omega
  have hset := List.all_eq_true.1 List.all_takeWhile _ (List.getElem_mem hlt)
  have hget := List.prefix_iff_getElem?.1 (List.takeWhile_prefix set) (j - i) hlt
  rw [List.getElem?_drop, Nat.add_sub_cancel' hij] at hget
  exact ⟨_, hget, hset⟩

theorem ne_of_avoids (hp : p.avoids c = true) (i : Nat) :
    ∀ r ∈ p.routes text i, ∀ j, i ≤ j → j < r.stop → text[j]? ≠ some c := by
  induction p generalizing i with
  | one set =>
    intro r hr j hij hj hget
    rw [routes, List.mem_ite_nil_right, List.mem_singleton] at hr
    have hstop : r.stop = i + 1 := by rw [hr.2]
    obtain rfl : j = i := by omega
    rw [avoids, Bool.not_eq_true'] at hp
    rw [hget, Option.any_some, hp] at hr
    exact Bool.false_ne_true hr.1
  | run set eager =>
    intro r hr j hij hj hget
    obtain ⟨k, hk, rfl⟩ := mem_routes_run.1 hr
    obtain ⟨x, hx, hset⟩ := getElem?_of_mem_runEnds hk hij hj
    rw [hget] at hx
    rw [avoids, Bool.not_eq_true', Option.some.inj hx, hset] at hp
    cases hp
  | seq first second ihFirst ihSecond =>
    intro r hr j hij hj
    rw [avoids, Bool.and_eq_true] at hp
    obtain ⟨r₁, h₁, r₂, h₂, rfl⟩ := mem_andThen.1 hr
    by_cases hlt : j < r₁.stop
    · exact ihFirst hp.1 i r₁ h₁ j hij hlt
    · exact ihSecond hp.2 r₁.stop r₂ h₂ j (Nat.le_of_not_lt hlt) hj
  | alt first second ihFirst ihSecond =>
    intro r hr
    rw [avoids, Bool.and_eq_true] at hp
    rcases List.mem_append.1 hr with hr | hr
    · exact ihFirst hp.1 i r hr
    · exact ihSecond hp.2 i r hr
  | many body ih =>
    refine repeated_induction ?_ ?_ (ih hp) _ i
    · exact fun _ j hij hj => absurd hij (Nat.not_le.2 hj)
    · intro _ r r' h h' j hij hj
      by_cases hlt : j < r.stop
      · exact h j hij hlt
      · exact h' j (Nat.le_of_not_lt hlt) hj
  | marked mark body ih =>
    intro r hr
    obtain ⟨inner, hinner, rfl⟩ := List.mem_map.1 hr
    exact ih hp i inner hinner
  | empty =>
    intro r hr j hij hj
    rw [routes, List.mem_singleton] at hr
    rw [hr] at hj
    exact absurd hij (Nat.not_le.2 hj)
  | lineStart | wordEdge =>
    intro r hr j hij hj
    rw [routes, List.mem_ite_nil_right, List.mem_singleton] at hr
    rw [hr.2] at hj
    exact absurd hij (Nat.not_le.2 hj)

theorem ne_of_avoidsBefore (hp : p.avoidsBefore c = true) (hr : r ∈ p.routes text i)
    (hij : i ≤ j) (hj : j + 1 < r.stop) : text[j]? ≠ some c := by
  induction p generalizing i r with
  | one set =>
    rw [routes, List.mem_ite_nil_right, List.mem_singleton] at hr
    rw [hr.2] at hj
    exact absurd hij (Nat.not_le.2 (Nat.lt_of_add_lt_add_right hj))
  | seq first second _ ihSecond =>
    rw [avoidsBefore, Bool.and_eq_true] at hp
    obtain ⟨r₁, h₁, r₂, h₂, rfl⟩ := mem_andThen.1 hr
    by_cases hlt : j < r₁.stop
    · exact ne_of_avoids hp.1 i r₁ h₁ j hij hlt
    · exact ihSecond hp.2 h₂ (Nat.le_of_not_lt hlt) hj
  | empty | run | alt | many | marked | lineStart | wordEdge =>
    exact ne_of_avoids hp i r hr j hij (by omega)

/-- Routes that end at the first `c` end at the same place. -/
theorem stop_le_of_avoidsBefore (hp : p.avoidsBefore c = true)
    (hlast : p.lastOf = some (· == c)) (hr : r ∈ p.routes text i) (hr' : r' ∈ p.routes text i) :
    r.stop ≤ r'.stop := by
  by_contra hlt
  obtain ⟨j, x, hij, hstop, hget, hx⟩ := getElem?_of_lastOf hlast hr'
  rw [beq_iff_eq.1 hx] at hget
  exact ne_of_avoidsBefore hp hr hij (by omega) hget

/-- A pattern that reads its first character nowhere else, nor its last one, and has no anchors. -/
structure Delimited (p : Pattern) : Prop where
  free : p.anchored = false
  first : ∃ c q, p = seq (one (· == c)) q ∧ q.avoids c = true
  last : ∃ c, p.avoidsBefore c = true ∧ p.lastOf = some (· == c)

namespace Delimited

/-- Where a delimited pattern has a route there is its first character. -/
theorem getElem?_of_mem_routes {q : Pattern} (hr : r ∈ (seq (one (· == c)) q).routes text i) :
    text[i]? = some c ∧ ∀ j, i < j → j < r.stop → q.avoids c = true → text[j]? ≠ some c := by
  obtain ⟨r₁, h₁, r₂, h₂, rfl⟩ := mem_andThen.1 hr
  rw [routes, List.mem_ite_nil_right, List.mem_singleton] at h₁
  obtain ⟨⟨x, hget, hx⟩, rfl⟩ := And.intro ((Option.any_eq_true _ _).1 h₁.1) h₁.2
  rw [beq_iff_eq.1 hx] at hget
  exact ⟨hget, fun j hij hj havoids => ne_of_avoids havoids (i + 1) r₂ h₂ j hij hj⟩

/-- The routes of a delimited pattern do not overlap, so each belongs to a match. -/
theorem exists_match (hp : p.Delimited) (hr : r ∈ p.routes text i) :
    ∃ m ∈ p.matchesIn text, m.start = i ∧ m.stop = r.stop := by
  obtain ⟨c, q, hpq, havoids⟩ := hp.first
  have hget : text[i]? = some c := (getElem?_of_mem_routes (by rwa [← hpq])).1
  have hi : i < text.length := (List.getElem?_eq_some_iff.1 hget).1
  obtain ⟨h, hmem, hle, hinside⟩ := exists_hitIn_of_mem (Nat.le_of_lt hi) hr
  have hroute := (mem_routes_of_mem_hitsIn hmem).2
  have hstart : h.start = i := by
    by_contra hne
    -- inside the hit there is no other first character
    rw [hpq] at hroute
    exact (getElem?_of_mem_routes hroute).2 i (by omega) (hinside.resolve_left hne) havoids hget
  rw [hstart] at hroute
  obtain ⟨c', havoids', hlast⟩ := hp.last
  refine ⟨h.toMatch text, ?_, hstart, ?_⟩
  · rw [matchesIn_eq]
    exact List.mem_map_of_mem hmem
  · exact Nat.le_antisymm (stop_le_of_avoidsBefore havoids' hlast hroute hr)
      (stop_le_of_avoidsBefore havoids' hlast hr hroute)

end Delimited

end Occurs

end Lineage.Pattern
