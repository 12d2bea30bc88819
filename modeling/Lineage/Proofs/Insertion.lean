import Lineage.Proofs.Blocks
import Lineage.Proofs.CommentScan
import Lineage.Proofs.Locality
import Mathlib.Data.List.Forall2

/-!
# Text at the end of a line

Text that is added at the end of a line moves what comes after it (`past`).  The matches of a
pattern need not be moved matches, since one may meet the added text.  But if no match goes on over
a place before the line end, nor over one after it, then those outside of this frame are the moved
ones (`matchesIn_insert`).

What is added has no braces, so as many are open at each place as before (`balance_past`), and
blocks are moved (`blockEnd_past`).  If it is a line comment, the places in a comment are those
after its slashes (`inComment_iff`).
-/

namespace Lineage

/-- A remembered part at other positions, in another text. -/
def Capture.move (f : Nat → Nat) (text : List Char) (c : Capture) : Capture :=
  ⟨f c.start, f c.stop, text.drop (f c.start)⟩

theorem Match.get?_move (f : Nat → Nat) (text text' : List Char) (h : Pattern.Hit) (mark : Mark) :
    ((h.move f).toMatch text').get? mark =
      ((h.toMatch text).get? mark).map (Capture.move f text') := by
  rw [get?_toMatch, get?_toMatch, Option.map_map]
  show (List.find? _ (h.route.spots.map (Pattern.Spot.move f))).map _ = _
  rw [List.find?_map, Option.map_map]
  rfl

/-- `found'` is `found` at other positions of another text, with the same characters in its
parts. -/
structure Match.Moved (f : Nat → Nat) (text' : List Char) (found found' : Match) : Prop where
  start : found'.start = f found.start
  get? : ∀ mark, found'.get? mark = (found.get? mark).map (Capture.move f text')
  chars : ∀ {mark c}, found.get? mark = some c → (c.move f text').chars = c.chars

theorem Match.Moved.map_chars {f : Nat → Nat} {text' : List Char} {found found' : Match}
    (h : Moved f text' found found') (mark : Mark) :
    (found'.get? mark).map Capture.chars = (found.get? mark).map Capture.chars := by
  rw [h.get? mark, Option.map_map]
  cases hc : found.get? mark with
  | none => rfl
  | some c => exact congrArg some (h.chars hc)

namespace Pattern

open Cursor

/-! ### Places of two lines -/

/-- Two texts with a newline between them, and something added before the newline. -/
def joinLines (before added after : List Char) : List Char :=
  before ++ added ++ '\n' :: after

/-- A position after `added` characters have been put in at position `n`. -/
def past (n added i : Nat) : Nat :=
  if i ≤ n then i else i + added

section Places

variable {n i : Nat} {before added after : List Char}

theorem past_of_le (added : Nat) (h : i ≤ n) : past n added i = i := if_pos h

theorem past_of_lt (added : Nat) (h : n < i) : past n added i = i + added :=
  if_neg (Nat.not_le.2 h)

theorem past_zero (n i : Nat) : past n 0 i = i := ite_self i

theorem past_lt_past_iff (n added i j : Nat) : past n added i < past n added j ↔ i < j := by
  unfold past
  split_ifs <;> omega

theorem joinLines_eq (before added after : List Char) :
    joinLines before added after = before ++ added ++ ['\n'] ++ after := by
  simp [joinLines]

theorem length_joinLines (before added after : List Char) :
    (joinLines before added after).length =
      before.length + added.length + 1 + after.length := by
  rw [joinLines_eq, List.length_append, List.length_append, List.length_append,
    List.length_singleton]

theorem take_joinLines (before added after : List Char) :
    (joinLines before added after).take before.length = before := by
  rw [joinLines, List.append_assoc, List.take_left]

theorem drop_joinLines (before added after : List Char) :
    (joinLines before added after).drop (before.length + added.length + 1) = after := by
  have hlength : (before ++ added ++ ['\n']).length = before.length + added.length + 1 := by
    rw [List.length_append, List.length_append, List.length_singleton]
  rw [joinLines_eq, ← hlength, List.drop_left]

theorem not_isWord_joinLines (hadded : added.head?.any Text.isWord = false)
    (before after : List Char) :
    (joinLines before added after)[before.length]?.any Text.isWord = false := by
  rw [joinLines, List.append_assoc, List.getElem?_append_right (Nat.le_refl _), Nat.sub_self]
  cases added with
  | nil =>
    show Text.isWord '\n' = false
    decide +kernel
  | cons c rest => exact hadded

theorem atLineStart_joinLines (before added after : List Char) :
    (place (joinLines before added after)
      (before.length + added.length + 1)).atLineStart = true := by
  have hlength : (before ++ added ++ ['\n']).length = before.length + added.length + 1 := by
    rw [List.length_append, List.length_append, List.length_singleton]
  rw [atLineStart, place, joinLines_eq, ← hlength, List.take_left, List.getLast?_concat]
  rfl

theorem take_joinLines_of_le (added after : List Char) (h : i ≤ before.length) :
    (joinLines before added after).take i = before.take i := by
  rw [joinLines, List.append_assoc, List.take_append_of_le_length h]

theorem drop_joinLines_of_le (added after : List Char) (h : i ≤ before.length) :
    (joinLines before added after).drop i = joinLines (before.drop i) added after := by
  rw [joinLines, List.append_assoc, List.drop_append_of_le_length h, ← List.append_assoc]
  rfl

theorem drop_past_of_lt (added after : List Char) (h : before.length < i) :
    (joinLines before added after).drop (past before.length added.length i) =
      (joinLines before [] after).drop i := by
  obtain ⟨k, rfl⟩ := Nat.exists_eq_add_of_lt h
  have hmoved : past before.length added.length (before.length + k + 1) =
      before.length + added.length + 1 + k := by
    rw [past_of_lt _ h]
    omega
  have hplain : before.length + k + 1 = before.length + ([] : List Char).length + 1 + k := by
    rw [List.length_nil]
    omega
  rw [hmoved, hplain, ← List.drop_drop, drop_joinLines, ← List.drop_drop, drop_joinLines]

theorem take_past_of_lt (added after : List Char) (h : before.length < i) :
    (joinLines before added after).take (past before.length added.length i) =
      joinLines before added (after.take (i - (before.length + 1))) := by
  obtain ⟨k, rfl⟩ := Nat.exists_eq_add_of_lt h
  have hmoved : past before.length added.length (before.length + k + 1) =
      (before ++ added ++ ['\n']).length + k := by
    rw [past_of_lt _ h, List.length_append, List.length_append, List.length_singleton]
    omega
  rw [hmoved, joinLines_eq, joinLines_eq, List.take_length_add_append]
  congr 2
  omega

end Places

/-! ### Matches around added text -/

section Insert

variable {p : Pattern} {before added after : List Char} {left right : Nat}

/-- A place in each of two lines that no match goes on over, when something is added at the end of
the first line. -/
structure Frame (p : Pattern) (before added after : List Char) (left right : Nat) : Prop where
  left_le : left ≤ before.length
  right_le : right ≤ after.length
  left_uncut : p.Uncut (joinLines before added after) left
  right_uncut : p.Uncut (joinLines before added after) (before.length + added.length + 1 + right)

/-- The matches that start between the two places. -/
def framed (p : Pattern) (before added after : List Char) (left right : Nat) : List Match :=
  p.matchesBetween (joinLines before added after) left (before.length + added.length + 1 + right)

theorem mem_of_mem_framed {m : Match} (h : m ∈ p.framed before added after left right) :
    m ∈ p.matchesIn (joinLines before added after) :=
  List.mem_of_mem_filter h

/-- The hits outside of the frame are those of the two lines. -/
theorem Frame.hitsIn_eq (h : p.Frame before added after left right)
    (hadded : added.head?.any Text.isWord = false) :
    p.hitsIn (joinLines before added after) =
      hits p before 0 (List.range' 0 left) ++
        (p.hitsBetween (joinLines before added after) left
            (before.length + added.length + 1 + right) ++
          (hits p after right (List.range' right (after.length - right + 1))).map
            (Hit.move (before.length + added.length + 1 + ·))) := by
  have hlength := length_joinLines before added after
  have hleft := h.left_le
  have hright := h.right_le
  obtain ⟨hsplit, hstops⟩ := hitsIn_cut (by omega) (by omega) h.left_uncut h.right_uncut
  have hfirst := hits_take (p := p) (n := before.length) (by omega)
    (fun _ => not_isWord_joinLines hadded before after)
    (fun i hi => by rw [List.mem_range'_1] at hi; omega)
    (fun hit hmem => Nat.le_trans (hstops hit hmem) hleft)
  have hlast := hits_drop (p := p) (fun _ => atLineStart_joinLines before added after) right
    (List.range' right (after.length - right + 1))
  have hrest : (joinLines before added after).length -
      (before.length + added.length + 1 + right) + 1 = after.length - right + 1 := by omega
  rw [List.map_add_range', drop_joinLines] at hlast
  rw [take_joinLines] at hfirst
  rw [hsplit, hfirst, hrest, hlast]

/-- A part that does not meet the line end is the same at its new place. -/
theorem part_past {start stop : Nat} (added : List Char) (hle : start ≤ stop)
    (haside : stop ≤ before.length ∨ before.length < start) :
    ((joinLines before added after).drop (past before.length added.length start)).take
        (past before.length added.length stop - past before.length added.length start) =
      ((joinLines before [] after).drop start).take (stop - start) := by
  rcases haside with haside | haside
  · have hlength : stop - start ≤ (before.drop start).length := by
      rw [List.length_drop]
      omega
    rw [past_of_le _ haside, past_of_le _ (Nat.le_trans hle haside),
      drop_joinLines_of_le _ _ (Nat.le_trans hle haside),
      drop_joinLines_of_le _ _ (Nat.le_trans hle haside), take_joinLines_of_le _ _ hlength,
      take_joinLines_of_le _ _ hlength]
  · rw [drop_past_of_lt _ _ haside, past_of_lt _ haside,
      past_of_lt _ (Nat.lt_of_lt_of_le haside hle), Nat.add_sub_add_right]

/-- A match that does not meet the line end is moved. -/
theorem moved_of_mem {h : Hit} (added : List Char)
    (hmem : h ∈ p.hitsIn (joinLines before [] after))
    (haside : h.route.stop ≤ before.length ∨ before.length < h.start) :
    Match.Moved (past before.length added.length) (joinLines before added after)
      (h.toMatch (joinLines before [] after))
      ((h.move (past before.length added.length)).toMatch (joinLines before added after)) where
  start := rfl
  get? := Match.get?_move _ _ _ h
  chars := by
    intro mark c hc
    obtain ⟨hstart, hroute⟩ := mem_routes_of_mem_hitsIn hmem
    have hfits := Match.fits_toMatch hstart (fits_of_mem_routes p _ _ hroute)
    obtain ⟨hle, hle', hle'', hsource⟩ := hfits.capture hc
    rw [Capture.chars, Capture.chars, hsource]
    refine part_past added hle' ?_
    rcases haside with haside | haside
    · exact Or.inl (Nat.le_trans hle'' haside)
    · exact Or.inr (Nat.lt_of_lt_of_le haside hle)

/-- Hits that are moved, as matches of the two texts. -/
theorem forall₂_moved {found : List Hit} (added : List Char)
    (hmem : ∀ h ∈ found, h ∈ p.hitsIn (joinLines before [] after))
    (haside : ∀ h ∈ found, h.route.stop ≤ before.length ∨ before.length < h.start) :
    List.Forall₂ (Match.Moved (past before.length added.length) (joinLines before added after))
      (found.map (Hit.toMatch (joinLines before [] after)))
      ((found.map (Hit.move (past before.length added.length))).map
        (Hit.toMatch (joinLines before added after))) := by
  rw [List.map_map, List.forall₂_map_left_iff, List.forall₂_map_right_iff, List.forall₂_same]
  exact fun h hh => moved_of_mem added (hmem h hh) (haside h hh)

/-- A hit before the line end stays where it is. -/
theorem move_past_of_stop_le {h : Hit} {text : List Char} {n : Nat}
    (hfits : h.route.Fits text h.start) (hle : h.route.stop ≤ n) (added : Nat) :
    h.move (past n added) = h := by
  have hid : h.move (past n added) = h.move id :=
    Hit.move_congr hfits (fun i _ hi => past_of_le added (Nat.le_trans hi hle))
  rw [hid, Hit.move_id]

/-- A hit after the line end passes over what is added. -/
theorem move_past_of_after (n added : Nat) (h : Hit) :
    (h.move (n + 0 + 1 + ·)).move (past n added) = h.move (n + added + 1 + ·) := by
  rw [Hit.move_move]
  congr 1
  funext i
  rw [Function.comp_apply, past_of_lt _ (by omega)]
  omega

/-- **Text that is added at the end of a line moves the matches outside of a frame** and changes
nothing else about them. -/
theorem matchesIn_insert (hadded : added.head?.any Text.isWord = false)
    (h : p.Frame before added after left right) (hplain : p.Frame before [] after left right) :
    ∃ first first' last last' : List Match,
      p.matchesIn (joinLines before [] after) =
          first ++ (p.framed before [] after left right ++ last) ∧
        p.matchesIn (joinLines before added after) =
          first' ++ (p.framed before added after left right ++ last') ∧
        List.Forall₂ (Match.Moved (past before.length added.length) (joinLines before added after))
          first first' ∧
        List.Forall₂ (Match.Moved (past before.length added.length) (joinLines before added after))
          last last' := by
  have hzero := hplain.hitsIn_eq rfl
  have hmoved := h.hitsIn_eq hadded
  rw [List.length_nil] at hzero
  have hstop : ∀ hit ∈ hits p before 0 (List.range' 0 left),
      hit.route.Fits before hit.start ∧ hit.route.stop ≤ before.length := by
    intro hit hmem
    obtain ⟨hstart, _, hroute⟩ := head?_routes_of_mem_hits hmem
    have hfits := fits_of_mem_routes p _ _ (List.mem_of_head? hroute)
    rw [List.mem_range'_1] at hstart
    have hleft := h.left_le
    exact ⟨hfits, hfits.stop_le (by omega)⟩
  generalize hits p before 0 (List.range' 0 left) = first at hzero hmoved hstop
  generalize hits p after right (List.range' right (after.length - right + 1)) = rest
    at hzero hmoved
  have hstay : first.map (Hit.move (past before.length added.length)) = first :=
    (List.map_congr_left (fun hit hmem => move_past_of_stop_le (hstop hit hmem).1
      (hstop hit hmem).2 _)).trans (List.map_id first)
  have hpass : (rest.map (Hit.move (before.length + 0 + 1 + ·))).map
      (Hit.move (past before.length added.length)) =
        rest.map (Hit.move (before.length + added.length + 1 + ·)) := by
    rw [List.map_map]
    exact List.map_congr_left (fun hit _ => move_past_of_after _ _ hit)
  rw [← hstay, ← hpass] at hmoved
  have hmem : ∀ hit ∈ first ++ rest.map (Hit.move (before.length + 0 + 1 + ·)),
      hit ∈ p.hitsIn (joinLines before [] after) := by
    intro hit hmem
    rw [hzero, List.mem_append, List.mem_append]
    exact (List.mem_append.1 hmem).imp_right Or.inr
  rw [List.forall_mem_append] at hmem
  have hfirst := forall₂_moved added hmem.1 (fun hit hh => Or.inl (hstop hit hh).2)
  have hlast := forall₂_moved added hmem.2 (fun hit hh => Or.inr (by
    obtain ⟨hit', _, rfl⟩ := List.mem_map.1 hh
    show before.length < before.length + 0 + 1 + hit'.start
    omega))
  refine ⟨_, _, _, _, ?_, ?_, hfirst, hlast⟩
  · rw [matchesIn_eq, framed, matchesBetween_eq, hzero, List.map_append, List.map_append]
    rfl
  · rw [matchesIn_eq, framed, matchesBetween_eq, hmoved, List.map_append, List.map_append]

/-! ### Occurrences around added text -/

/-- Some match meets the added text or the newline after it. -/
def Meets (p : Pattern) (before added after : List Char) : Prop :=
  ∃ m ∈ p.matchesIn (joinLines before added after),
    m.start ≤ before.length + added.length ∧ before.length < m.stop

instance (p : Pattern) (before added after : List Char) : Decidable (p.Meets before added after) :=
  inferInstanceAs (Decidable (∃ m ∈ p.matchesIn _, _))

theorem Delimited.meets_iff (hp : p.Delimited) : p.Meets before added after ↔
    ∃ i, ∃ r ∈ p.routes (joinLines before added after) i,
      i ≤ before.length + added.length ∧ before.length < r.stop := by
  constructor
  · rintro ⟨m, hm, hstart, hstop⟩
    rw [matchesIn_eq, List.mem_map] at hm
    obtain ⟨hit, hmem, rfl⟩ := hm
    exact ⟨hit.start, hit.route, (mem_routes_of_mem_hitsIn hmem).2, hstart, hstop⟩
  · rintro ⟨i, r, hr, hi, hstop⟩
    obtain ⟨m, hm, hmi, hmr⟩ := hp.exists_match hr
    exact ⟨m, hm, by omega, by omega⟩

/-- A pattern without anchors occurs in a part of the text around what is added if it occurs before
the line end, or after it, or if a route between the ends of the part meets it. -/
theorem occursIn_joinLines_iff (hp : p.anchored = false) {start stop : Nat}
    (hstart : start ≤ before.length) (hstop : before.length + added.length < stop)
    (hle : stop ≤ (joinLines before added after).length) :
    p.occursIn (((joinLines before added after).drop start).take (stop - start)) = true ↔
      p.occursIn (before.drop start) = true ∨
      p.occursIn (after.take (stop - (before.length + added.length + 1))) = true ∨
      ∃ i, ∃ r ∈ p.routes (joinLines before added after) i, start ≤ i ∧ r.stop ≤ stop ∧
        i ≤ before.length + added.length ∧ before.length < r.stop := by
  have hbefore : before.drop start =
      ((joinLines before added after).drop start).take (before.length - start) := by
    rw [← List.drop_take, take_joinLines]
  have hafter : after.take (stop - (before.length + added.length + 1)) =
      ((joinLines before added after).drop (before.length + added.length + 1)).take
        (stop - (before.length + added.length + 1)) := by
    rw [drop_joinLines]
  have hlength := length_joinLines before added after
  rw [hbefore, hafter, occursIn_part_iff hp (by omega), occursIn_part_iff hp (by omega),
    occursIn_part_iff hp (by omega), Nat.add_sub_cancel' (by omega), Nat.add_sub_cancel' hstart,
    Nat.add_sub_cancel' hstop]
  constructor
  · rintro ⟨i, r, hi, hr, hrstop⟩
    by_cases hend : r.stop ≤ before.length
    · exact Or.inl ⟨i, r, hi, hr, hend⟩
    · by_cases hlate : before.length + added.length + 1 ≤ i
      · exact Or.inr (Or.inl ⟨i, r, hlate, hr, hrstop⟩)
      · exact Or.inr (Or.inr ⟨i, r, hr, hi, hrstop, by omega, by omega⟩)
  · rintro (⟨i, r, hi, hr, hrstop⟩ | ⟨i, r, hi, hr, hrstop⟩ | ⟨i, r, hr, hi, hrstop, _⟩)
    · exact ⟨i, r, hi, hr, by omega⟩
    · exact ⟨i, r, by omega, hr, hrstop⟩
    · exact ⟨i, r, hi, hr, hrstop⟩

end Insert

end Pattern

namespace Source

open Pattern

variable {before added after : List Char} {i : Nat}

/-! ### Braces -/

/-- A text without braces. -/
def Plain (text : List Char) : Prop :=
  ∀ c ∈ text, c ≠ '{' ∧ c ≠ '}'

theorem balance_past (hadded : Plain added) (before after : List Char) (i : Nat) :
    balance ((joinLines before added after).take (past before.length added.length i)) =
      balance ((joinLines before [] after).take i) := by
  by_cases hi : i ≤ before.length
  · rw [past_of_le _ hi, take_joinLines_of_le _ _ hi, take_joinLines_of_le _ _ hi]
  · have hplain := take_past_of_lt [] after (Nat.lt_of_not_le hi)
    rw [List.length_nil, past_zero] at hplain
    rw [take_past_of_lt _ _ (Nat.lt_of_not_le hi), hplain, joinLines, joinLines, balance_append,
      balance_append, balance_append, balance_append, balance_eq_zero hadded, balance_nil]

theorem closing?_append_of_plain (hadded : Plain added) (depth : Nat) (text : List Char) :
    closing? depth 0 (added ++ text) = (closing? depth 0 text).map (added.length + ·) := by
  induction added with
  | nil => simp
  | cons c rest ih =>
    have hc := hadded c List.mem_cons_self
    rw [List.cons_append, closing?, if_neg (by simpa using hc.1), if_neg (by simpa using hc.2),
      closing?_eq_map, ih (fun x hx => hadded x (List.mem_cons_of_mem c hx)), Option.map_map]
    congr 1
    funext n
    show 0 + 1 + (rest.length + n) = rest.length + 1 + n
    omega

theorem closing?_joinLines (hadded : Plain added) (before after : List Char) (depth : Nat) :
    closing? depth 0 (joinLines before added after) =
      (closing? depth 0 (joinLines before [] after)).map (past before.length added.length) := by
  -- both searches read the text before alike; after it one of them passes over what is added
  induction before generalizing depth with
  | nil =>
    have hnewline : closing? depth 0 ('\n' :: after) = closing? depth 1 after := rfl
    rw [joinLines, joinLines, List.nil_append, List.nil_append, List.nil_append,
      closing?_append_of_plain hadded, hnewline, closing?_eq_map, Option.map_map, Option.map_map]
    congr 1
    funext n
    show added.length + (1 + n) = past 0 added.length (1 + n)
    rw [past_of_lt _ (by omega), Nat.add_comm]
  | cons c rest ih =>
    have hcons : ∀ text, joinLines (c :: rest) text after = c :: joinLines rest text after :=
      fun _ => rfl
    have hstep : ∀ depth, closing? depth (0 + 1) (joinLines rest added after) =
        (closing? depth (0 + 1) (joinLines rest [] after)).map
          (past (c :: rest).length added.length) := by
      intro depth
      rw [closing?_eq_map, closing?_eq_map depth (0 + 1), ih, Option.map_map, Option.map_map]
      congr 1
      funext n
      show 0 + 1 + past rest.length added.length n = past (rest.length + 1) added.length (0 + 1 + n)
      unfold past
      split_ifs <;> omega
    rw [hcons, hcons]
    unfold closing?
    split_ifs
    · exact hstep (depth + 1)
    · show some 1 = some (past (rest.length + 1) added.length 1)
      rw [past_of_le _ (by omega)]
    · exact hstep (depth - 1)
    · exact hstep depth

/-- A block ends at the same place. -/
theorem blockEnd_past (hadded : Plain added) (before after : List Char) (i : Nat) :
    blockEnd (joinLines before added after) (past before.length added.length i) =
      past before.length added.length (blockEnd (joinLines before [] after) i) := by
  by_cases hle : i ≤ before.length
  · -- the search from here on may end before the added text or after it
    have hclosing := closing?_joinLines hadded (before.drop i) after 0
    rw [past_of_le _ hle, blockEnd, blockEnd, blockLength, blockLength,
      drop_joinLines_of_le _ _ hle, drop_joinLines_of_le _ _ hle, hclosing]
    cases closing? 0 0 (joinLines (before.drop i) [] after) with
    | some n =>
      show i + past (before.drop i).length added.length n = past before.length added.length (i + n)
      rw [List.length_drop]
      unfold past
      split_ifs <;> omega
    | none =>
      rw [Option.map_none, Option.getD_none, Option.getD_none, length_joinLines, length_joinLines,
        List.length_drop, List.length_nil, past_of_lt _ (by omega)]
      omega
  · -- the text from here on is the same
    have hlt := Nat.lt_of_not_le hle
    have hend : i ≤ blockEnd (joinLines before [] after) i := Nat.le_add_right _ _
    rw [past_of_lt _ (Nat.lt_of_lt_of_le hlt hend), blockEnd, blockEnd, drop_past_of_lt _ _ hlt,
      past_of_lt _ hlt]
    omega

/-- Positions of one text moved to another one, with the same braces and blocks. -/
structure Carries (f : Nat → Nat) (text text' : List Char) : Prop where
  length : text'.length = f text.length
  lt_iff : ∀ i j, f i < f j ↔ i < j
  balance : ∀ i, balance (text'.take (f i)) = balance (text.take i)
  blockEnd : ∀ i, blockEnd text' (f i) = f (blockEnd text i)

theorem carries_past (hadded : Plain added) (before after : List Char) :
    Carries (past before.length added.length) (joinLines before [] after)
      (joinLines before added after) where
  length := by
    rw [length_joinLines, length_joinLines, List.length_nil, past_of_lt _ (by omega)]
    omega
  lt_iff := past_lt_past_iff _ _
  balance := balance_past hadded before after
  blockEnd := blockEnd_past hadded before after

/-! ### Line comments -/

/-- Two slashes and what follows them on their line. -/
def lineComment (comment : List Char) : List Char :=
  '/' :: '/' :: comment

theorem not_isWord_lineComment (comment : List Char) :
    (lineComment comment).head?.any Text.isWord = false := by
  show Text.isWord '/' = false
  decide +kernel

/-- A comment without braces and stars that stays on its line, and the text around it, which has no
comment marks of its own. -/
structure Remark (before comment after : List Char) : Prop where
  comment : ∀ c ∈ comment, c ≠ '\n' ∧ c ≠ '{' ∧ c ≠ '}' ∧ c ≠ '*'
  around : ∀ c ∈ before ++ after, c ≠ '/' ∧ c ≠ '*'

/-- In a text without stars, only slashes start a comment. -/
theorem inComment_iff_of_star {text : List Char} (h : '*' ∉ text) : inComment text = true ↔
    ∃ front rest, text = front ++ '/' :: '/' :: rest ∧ '\n' ∉ rest := by
  rw [inComment_iff, slashes_lastLine_iff, or_iff_left]
  rw [inBlockComment_iff]
  rintro ⟨front, rest, rfl, _⟩
  exact h (by simp)

namespace Remark

variable {comment : List Char}

theorem plain (h : Remark before comment after) : Plain (lineComment comment) := by
  have hslash : '/' ≠ '{' ∧ '/' ≠ '}' := by decide
  refine List.forall_mem_cons.2 ⟨hslash, List.forall_mem_cons.2 ⟨hslash, fun c hc => ?_⟩⟩
  exact ⟨(h.comment c hc).2.1, (h.comment c hc).2.2.1⟩

theorem not_mem_joinLines (h : Remark before comment after) {c : Char} (hc : c = '/' ∨ c = '*')
    (hadded : c ∉ added) : c ∉ joinLines before added after := by
  have haround : c ∉ before ++ after := by
    intro hmem
    rcases hc with rfl | rfl
    · exact (h.around _ hmem).1 rfl
    · exact (h.around _ hmem).2 rfl
  have hline : c ≠ '\n' := by rcases hc with rfl | rfl <;> decide
  rw [List.mem_append, not_or] at haround
  rw [joinLines, List.mem_append, List.mem_append, List.mem_cons]
  rintro ((hmem | hmem) | hmem | hmem)
  · exact haround.1 hmem
  · exact hadded hmem
  · exact hline hmem
  · exact haround.2 hmem

/-- Without the comment no place is in one. -/
theorem inComment_eq_false (h : Remark before comment after) (i : Nat) :
    inComment ((joinLines before [] after).take i) = false := by
  have hstar := h.not_mem_joinLines (Or.inr rfl) (List.not_mem_nil (a := '*'))
  have hslash := h.not_mem_joinLines (Or.inl rfl) (List.not_mem_nil (a := '/'))
  rw [← Bool.not_eq_true, inComment_iff_of_star (fun hmem => hstar (List.mem_of_mem_take hmem))]
  rintro ⟨front, rest, htake, _⟩
  have hmem : '/' ∈ (joinLines before [] after).take i := by simp [htake]
  exact hslash (List.mem_of_mem_take hmem)

/-- All slashes are in the comment. -/
theorem bounds_of_slash (h : Remark before comment after)
    (hi : (joinLines before (lineComment comment) after)[i]? = some '/') :
    before.length ≤ i ∧ i < before.length + (lineComment comment).length := by
  constructor
  · by_contra hlt
    rw [joinLines, List.append_assoc, List.getElem?_append_left (by omega)] at hi
    exact (h.around _ (List.mem_append_left _ (List.mem_of_getElem? hi))).1 rfl
  · by_contra hle
    rw [joinLines, List.getElem?_append_right (by rw [List.length_append]; omega)] at hi
    rcases List.mem_cons.1 (List.mem_of_getElem? hi) with hi | hi
    · exact absurd hi (by decide)
    · exact (h.around _ (List.mem_append_right _ hi)).1 rfl

/-- **The places in a comment** are those after its slashes, up to the end of its line. -/
theorem inComment_iff (h : Remark before comment after) (i : Nat) :
    inComment ((joinLines before (lineComment comment) after).take i) = true ↔
      before.length + 2 ≤ i ∧ i ≤ before.length + (lineComment comment).length := by
  have hstar : '*' ∉ joinLines before (lineComment comment) after := by
    refine h.not_mem_joinLines (Or.inr rfl) ?_
    simp only [lineComment, List.mem_cons]
    rintro (hmem | hmem | hmem)
    · exact absurd hmem (by decide)
    · exact absurd hmem (by decide)
    · exact (h.comment _ hmem).2.2.2 rfl
  rw [inComment_iff_of_star (fun hmem => hstar (List.mem_of_mem_take hmem))]
  constructor
  · rintro ⟨front, rest, htake, hrest⟩
    have hget : ∀ k, k < i → (joinLines before (lineComment comment) after)[k]? =
        (front ++ '/' :: '/' :: rest)[k]? := by
      intro k hk
      rw [← htake, List.getElem?_take_of_lt hk]
    have hlength : front.length + 2 ≤ i := by
      have := congrArg List.length htake
      simp only [List.length_take, List.length_append, List.length_cons] at this
      omega
    have hslash := (h.bounds_of_slash (i := front.length) (by
      rw [hget _ (by omega)]
      simp)).1
    have hslash' := (h.bounds_of_slash (i := front.length + 1) (by
      rw [hget _ (by omega)]
      simp)).2
    refine ⟨by omega, Nat.le_of_not_lt (fun hlt => hrest ?_)⟩
    -- behind the line end there would be a newline after the slashes
    have hline : (joinLines before (lineComment comment) after)[before.length +
        (lineComment comment).length]? = some '\n' := by
      rw [joinLines, List.getElem?_append_right (by rw [List.length_append]), List.length_append,
        Nat.sub_self]
      rfl
    obtain ⟨k, hk⟩ := Nat.exists_eq_add_of_le (show front.length + 2 ≤
      before.length + (lineComment comment).length by omega)
    rw [hget _ hlt, hk, List.getElem?_append_right (by omega)] at hline
    have hskip : front.length + 2 + k - front.length = k + 2 := by omega
    rw [hskip] at hline
    exact List.mem_of_getElem? hline
  · rintro ⟨hle, hle'⟩
    obtain ⟨k, rfl⟩ := Nat.exists_eq_add_of_le hle
    have hlength : (lineComment comment).length = comment.length + 2 := rfl
    refine ⟨before, comment.take k, ?_,
      fun hmem => (h.comment _ (List.mem_of_mem_take hmem)).1 rfl⟩
    rw [joinLines, List.append_assoc, Nat.add_assoc, List.take_length_add_append,
      List.take_append_of_le_length (by omega), Nat.add_comm]
    rfl

end Remark

end Source

end Lineage
