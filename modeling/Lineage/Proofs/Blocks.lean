import Lineage.Source.Block
import Mathlib.Data.List.Basic

/-!
# Blocks of braces

The block that opens at a brace reaches to the place where as many braces are open as before it, or
to the end of the text.  Inside it more braces are open (`isBlock_blockEnd`).  This alone decides
how blocks lie to each other: of two blocks one ends before the other opens, or one holds the other
(`IsBlock.le_or_le`).
-/

namespace Lineage.Source

variable {text : List Char} {start stop : Nat}

/-! ### Counting braces -/

theorem balance_cons (c : Char) (text : List Char) :
    balance (c :: text) = afterBrace 0 c + balance text := by
  rw [balance, List.foldl_cons, foldl_afterBrace]

theorem balance_eq_zero (h : ∀ c ∈ text, c ≠ '{' ∧ c ≠ '}') : balance text = 0 := by
  induction text with
  | nil => rfl
  | cons c text ih =>
    have hc := h c List.mem_cons_self
    rw [balance_cons, ih (fun x hx => h x (List.mem_cons_of_mem c hx))]
    simp [afterBrace, hc]

@[simp]
theorem afterBrace_open (depth : Int) : afterBrace depth '{' = depth + 1 := rfl

@[simp]
theorem afterBrace_close (depth : Int) : afterBrace depth '}' = depth - 1 := rfl

theorem afterBrace_other (depth : Int) {c : Char} (hopen : ¬ (c == '{') = true)
    (hclose : ¬ (c == '}') = true) : afterBrace depth c = depth := by
  rw [afterBrace, if_neg hopen, if_neg hclose]

/-- The characters read before do not matter to the search for a closing brace. -/
theorem closing?_eq_map (depth read : Nat) (text : List Char) :
    closing? depth read text = (closing? depth 0 text).map (read + ·) := by
  induction text generalizing depth read with
  | nil => rfl
  | cons c rest ih =>
    have hstep : ∀ depth, closing? depth (read + 1) rest =
        (closing? depth (0 + 1) rest).map (read + ·) := by
      intro depth
      rw [ih depth (read + 1), ih depth (0 + 1), Option.map_map]
      congr 1
      funext n
      show read + 1 + n = read + (0 + 1 + n)
      omega
    unfold closing?
    split_ifs
    · exact hstep (depth + 1)
    · rfl
    · exact hstep (depth - 1)
    · exact hstep depth

/-- After `n` characters, and not before, as many braces more are closed than opened as were open
at the start. -/
structure Closes (depth : Nat) (text : List Char) (n : Nat) : Prop where
  pos : 0 < n
  le_length : n ≤ text.length
  balance_eq : balance (text.take n) = -depth
  lt_balance : ∀ k < n, -depth < balance (text.take k)

theorem Closes.cons {depth depth' n : Nat} {c : Char} {rest : List Char} (hdepth : 1 ≤ depth)
    (hc : (depth' : Int) = depth + afterBrace 0 c) (h : Closes depth' rest n) :
    Closes depth (c :: rest) (n + 1) where
  pos := Nat.succ_pos n
  le_length := Nat.succ_le_succ h.le_length
  balance_eq := by
    rw [List.take_succ_cons, balance_cons, h.balance_eq]
    omega
  lt_balance := by
    intro k hk
    cases k with
    | zero =>
      rw [List.take_zero, balance_nil]
      omega
    | succ k =>
      have := h.lt_balance k (by omega)
      rw [List.take_succ_cons, balance_cons]
      omega

/-- The search for a closing brace stops where the open braces are closed. -/
theorem closes_of_closing? {depth read : Nat} (hdepth : 1 ≤ depth)
    (h : closing? depth read text = some stop) : ∃ n, stop = read + n ∧ Closes depth text n := by
  induction text generalizing depth read with
  | nil => cases h
  | cons c rest ih =>
    have hstep : ∀ depth' : Nat, 1 ≤ depth' → (depth' : Int) = depth + afterBrace 0 c →
        closing? depth' (read + 1) rest = some stop →
        ∃ n, stop = read + n ∧ Closes depth (c :: rest) n := by
      intro depth' hdepth' hc hrest
      obtain ⟨n, hn, hcloses⟩ := ih hdepth' hrest
      exact ⟨n + 1, by omega, hcloses.cons hdepth hc⟩
    unfold closing? at h
    split at h
    · rename_i hopen
      obtain rfl := beq_iff_eq.1 hopen
      exact hstep (depth + 1) (by omega) (by simp) h
    · rename_i hopen
      split at h
      · rename_i hclose
        obtain rfl := beq_iff_eq.1 hclose
        split at h
        · rw [Option.some.injEq] at h
          have hone : depth = 1 := by omega
          refine ⟨1, h.symm, Nat.one_pos, by simp, by simp [balance_cons, hone], fun k hk => ?_⟩
          obtain rfl : k = 0 := by omega
          rw [List.take_zero, balance_nil]
          omega
        · exact hstep (depth - 1) (by omega) (by simp; omega) h
      · rename_i hclose
        exact hstep depth hdepth (by rw [afterBrace_other 0 hopen hclose]; omega) h

/-- A search that fails never finds the open braces closed. -/
theorem lt_balance_of_closing? {depth read : Nat} (hdepth : 1 ≤ depth)
    (h : closing? depth read text = none) (k : Nat) : -depth < balance (text.take k) := by
  induction text generalizing depth read k with
  | nil =>
    rw [List.take_nil, balance_nil]
    omega
  | cons c rest ih =>
    cases k with
    | zero =>
      rw [List.take_zero, balance_nil]
      omega
    | succ k =>
      rw [List.take_succ_cons, balance_cons]
      unfold closing? at h
      split at h
      · rename_i hopen
        obtain rfl := beq_iff_eq.1 hopen
        have := ih (by omega) h k
        rw [afterBrace_open]
        omega
      · rename_i hopen
        split at h
        · rename_i hclose
          obtain rfl := beq_iff_eq.1 hclose
          split at h
          · cases h
          · have := ih (by omega) h k
            rw [afterBrace_close]
            omega
        · rename_i hclose
          have := ih hdepth h k
          rw [afterBrace_other 0 hopen hclose]
          omega

/-! ### Blocks -/

/-- The places from `start` to `stop` are those of a block: more braces are open inside than before
it, and it ends where no more are open or where the text ends. -/
structure IsBlock (text : List Char) (start stop : Nat) : Prop where
  start_lt : start < stop
  stop_le : stop ≤ text.length
  inside : ∀ k, start < k → k < stop → balance (text.take start) < balance (text.take k)
  closed : balance (text.take stop) = balance (text.take start) ∨
    stop = text.length ∧ balance (text.take start) < balance (text.take stop)

theorem balance_take_add (text : List Char) (start k : Nat) :
    balance (text.take (start + k)) = balance (text.take start) + balance ((text.drop start).take k)
    := by
  rw [List.take_add, balance_append]

/-- **A brace opens a block** that reaches to its end. -/
theorem isBlock_blockEnd (h : text[start]? = some '{') :
    IsBlock text start (blockEnd text start) := by
  have hlt : start < text.length := (List.getElem?_eq_some_iff.1 h).1
  have hdrop : text.drop start = '{' :: text.drop (start + 1) := by
    rw [List.drop_eq_getElem?_toList_append, h]
    rfl
  have hlen : (text.drop (start + 1)).length = text.length - (start + 1) := List.length_drop
  have hsearch : closing? 0 0 (text.drop start) = closing? 1 1 (text.drop (start + 1)) := by
    rw [hdrop]
    rfl
  -- the count after the opening brace is one more than the one after `k` further characters
  have hcount : ∀ k, balance (text.take (start + (k + 1))) =
      balance (text.take start) + 1 + balance ((text.drop (start + 1)).take k) := by
    intro k
    rw [balance_take_add, hdrop, List.take_succ_cons, balance_cons, afterBrace_open]
    omega
  have hend : blockEnd text start = start + (closing? 1 1 (text.drop (start + 1))).getD
      (text.drop start).length := by
    rw [blockEnd, blockLength, hsearch]
  cases hclosing : closing? 1 1 (text.drop (start + 1)) with
  | some n =>
    obtain ⟨m, rfl, hcloses⟩ := closes_of_closing? (Nat.le_refl 1) hclosing
    have hle := hcloses.le_length
    rw [hend, hclosing, Option.getD_some, Nat.add_comm 1 m]
    refine ⟨by omega, by omega, fun k hk hkm => ?_, Or.inl ?_⟩
    · obtain ⟨j, rfl⟩ : ∃ j, k = start + (j + 1) := ⟨k - start - 1, by omega⟩
      have := hcloses.lt_balance j (by omega)
      rw [hcount]
      omega
    · rw [hcount, hcloses.balance_eq]
      omega
  | none =>
    have hinside := lt_balance_of_closing? (Nat.le_refl 1) hclosing
    rw [hend, hclosing, Option.getD_none, List.length_drop,
      show start + (text.length - start) = text.length by omega]
    refine ⟨hlt, Nat.le_refl _, fun k hk _ => ?_, Or.inr ⟨rfl, ?_⟩⟩
    · obtain ⟨j, rfl⟩ : ∃ j, k = start + (j + 1) := ⟨k - start - 1, by omega⟩
      have := hinside j
      rw [hcount]
      omega
    · obtain ⟨j, hj⟩ : ∃ j, text.length = start + (j + 1) := ⟨text.length - start - 1, by omega⟩
      have := hinside j
      rw [hj, hcount]
      omega

/-- **Blocks do not cross**: a block that opens inside another one ends inside it. -/
theorem IsBlock.le_or_le {start' stop' : Nat} (h : IsBlock text start stop)
    (h' : IsBlock text start' stop') (hlt : start < start') : stop ≤ start' ∨ stop' ≤ stop := by
  by_contra hcross
  -- the outer block would end inside the inner one, where more braces are open
  have hopen := h.inside start' hlt (by omega)
  have hopen' := h'.inside stop (by omega) (by omega)
  have hstop' := h'.stop_le
  rcases h.closed with hclosed | ⟨hclosed, _⟩ <;> omega

theorem IsBlock.stop_le_of_start_eq {stop' : Nat} (h : IsBlock text start stop)
    (h' : IsBlock text start stop') : stop' ≤ stop := by
  by_contra hlt
  have hopen := h'.inside stop h.start_lt (by omega)
  have hstop' := h'.stop_le
  rcases h.closed with hclosed | ⟨hclosed, _⟩ <;> omega

/-- More braces are open inside a block than before it, up to its end. -/
theorem IsBlock.lt_balance (h : IsBlock text start stop) {k : Nat} (hstart : start < k)
    (hstop : k < stop) (hbefore : 0 ≤ balance (text.take start)) : 0 < balance (text.take k) :=
  Int.lt_of_le_of_lt hbefore (h.inside k hstart hstop)

/-! ### Parts without braces -/

theorem getElem?_of_mem_slice {x : Char} {start stop : Nat} (h : x ∈ slice text start stop) :
    ∃ k, start ≤ k ∧ k < stop ∧ text[k]? = some x := by
  obtain ⟨k, hk⟩ := List.getElem?_of_mem h
  have hlt : k < stop - start := by
    have hlength := (List.getElem?_eq_some_iff.1 hk).1
    rw [slice, List.length_take] at hlength
    exact Nat.lt_of_lt_of_le hlength (Nat.min_le_left _ _)
  rw [slice, List.getElem?_take_of_lt hlt, List.getElem?_drop] at hk
  exact ⟨start + k, Nat.le_add_right _ _, by omega, hk⟩

theorem mem_slice_of_getElem? {start stop k : Nat} {c : Char} (h : text[k]? = some c)
    (hstart : start ≤ k) (hstop : k < stop) : c ∈ slice text start stop := by
  have hget : (slice text start stop)[k - start]? = some c := by
    rw [slice, List.getElem?_take_of_lt (by omega), List.getElem?_drop, Nat.add_sub_cancel' hstart,
      h]
  exact List.mem_of_getElem? hget

/-- Where there are no braces, as many are open at the end as at the start. -/
theorem balance_take_of_plain (h : ∀ c ∈ slice text start stop, c ≠ '{' ∧ c ≠ '}') {k : Nat}
    (hstart : start ≤ k) (hstop : k ≤ stop) :
    balance (text.take k) = balance (text.take start) := by
  obtain ⟨n, rfl⟩ := Nat.exists_eq_add_of_le hstart
  have hpart : ∀ c ∈ (text.drop start).take n, c ≠ '{' ∧ c ≠ '}' := by
    intro c hc
    exact h c (((List.take_prefix_take_left (by omega)).subset) hc)
  rw [balance_take_add, balance_eq_zero hpart, Int.add_zero]

/-- A block around one place of a part without braces is around the part. -/
theorem IsBlock.around_part (h : IsBlock text start stop) {i j k : Nat}
    (hpart : ∀ c ∈ slice text i j, c ≠ '{' ∧ c ≠ '}') (hik : i ≤ k) (hkj : k ≤ j)
    (hstart : start < k) (hstop : k < stop) : start < i ∧ (j < stop ∨ stop = text.length) := by
  have hlevel := fun k => balance_take_of_plain hpart (k := k)
  have hinside := h.inside k hstart hstop
  rw [hlevel k hik hkj] at hinside
  refine ⟨Nat.lt_of_not_le (fun hle => ?_), ?_⟩
  · rw [hlevel start hle (by omega)] at hinside
    exact Int.lt_irrefl _ hinside
  · by_cases hj : j < stop
    · exact Or.inl hj
    · rcases h.closed with hclosed | ⟨hend, _⟩
      · rw [← hclosed, hlevel stop (by omega) (by omega)] at hinside
        exact absurd hinside (Int.lt_irrefl _)
      · exact Or.inr hend

end Lineage.Source
