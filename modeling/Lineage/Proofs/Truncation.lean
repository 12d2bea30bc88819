import Lineage.Text.Truncate
import Mathlib.Algebra.Ring.Nat
import Mathlib.Data.List.Infix

/-!
# Cut texts

A text that is too wide is cut after the longest start that leaves a column for the ellipsis.  The
widths of characters decide where, the width of the text decides whether, so the laws of cutting
(`Ruler.Truncates`) need that both agree along the text (`Ruler.Additive`).  On a terminal they do
for every text in which no character changes the look of its neighbours (`additive_terminal`).  The
main statement is `truncates_of_sum`.
-/

namespace Lineage.Text

/-! ### Texts whose characters keep their widths -/

/-- Whether a character takes its own columns, whatever stands around it, and leaves the characters
before it theirs. -/
def isPlain (c : Char) : Bool :=
  !isControl c && c != emojiSelector && c != textSelector && Follower.ofChar c == .plain

theorem measure_of_isPlain {c : Char} (h : isPlain c = true) :
    measure c {} = ((charWidth c : Int), {}) := by
  simp only [isPlain, Bool.and_eq_true, Bool.not_eq_true', bne_iff_ne, beq_iff_eq] at h
  obtain ⟨⟨⟨hcontrol, hemoji⟩, htext⟩, hplain⟩ := h
  by_cases hbasic : c.toNat ≤ 0xA0
  · have hnewline : c ≠ '\n' := by
      rintro rfl
      exact absurd hcontrol (by decide)
    have hreturn : c ≠ '\r' := by
      rintro rfl
      exact absurd hcontrol (by decide)
    have hwidth : charWidth c = 1 := by
      rcases Nat.lt_or_eq_of_le hbasic with hlt | heq
      · simp [charWidth, hcontrol, hlt]
      · obtain rfl : c = '\u00A0' := Char.toNat_inj.1 heq
        decide
    simp [measure, measureBasic, hbasic, hnewline, hreturn, hwidth]
  · simp [measure, hbasic, hemoji, htext, hplain, Follower.accept?]

/-- The columns of the characters of a text, each taken by itself. -/
def Ruler.sum (r : Ruler) (text : List Char) : Nat :=
  (text.map r.char).sum

@[simp]
theorem Ruler.sum_nil (r : Ruler) : r.sum [] = 0 := rfl

@[simp]
theorem Ruler.sum_cons (r : Ruler) (c : Char) (text : List Char) :
    r.sum (c :: text) = r.char c + r.sum text := by
  simp [sum]

@[simp]
theorem Ruler.sum_append (r : Ruler) (text more : List Char) :
    r.sum (text ++ more) = r.sum text + r.sum more := by
  simp [sum]

/-- A plain text is as wide as its characters together. -/
theorem width_of_isPlain {text : List Char} (h : ∀ c ∈ text, isPlain c = true) :
    width text = terminal.sum text := by
  -- a plain character finds nothing behind it that asks for another look, and asks for none
  have hmeasured : ∀ step : Char → Int × Following → Int × Following,
      (∀ c columns, isPlain c = true → step c (columns, {}) = (charWidth c + columns, {})) →
      text.foldr step (0, {}) = ((terminal.sum text : Int), {}) := by
    intro step hstep
    induction text with
    | nil => rfl
    | cons c rest ih =>
      have hrest := ih (fun a ha => h a (List.mem_cons_of_mem c ha))
      rw [List.foldr_cons, hrest, hstep c _ (h c List.mem_cons_self), Ruler.sum_cons]
      simp [terminal]
  rw [width, hmeasured]
  · exact Int.toNat_natCast _
  · intro c columns hc
    simp only [measure_of_isPlain hc]

namespace Ruler

variable {r : Ruler} {text start : List Char} {budget m k : Nat}

/-! ### The longest start that fits -/

theorem fitting_isPrefix (r : Ruler) (budget : Nat) (text : List Char) :
    r.fitting budget text <+: text := by
  induction text generalizing budget with
  | nil => exact List.prefix_rfl
  | cons c rest ih =>
    unfold fitting
    split_ifs
    · exact (List.prefix_cons_inj c).2 (ih (budget - r.char c))
    · exact List.nil_prefix

theorem sum_fitting_le (r : Ruler) (budget : Nat) (text : List Char) :
    r.sum (r.fitting budget text) ≤ budget := by
  induction text generalizing budget with
  | nil => exact Nat.zero_le budget
  | cons c rest ih =>
    unfold fitting
    split_ifs with hfits
    · have hrest := ih (budget - r.char c)
      rw [sum_cons]
      omega
    · exact Nat.zero_le budget

/-- Every start that fits is a start of the one that is kept. -/
theorem isPrefix_fitting (hstart : start <+: text) (hle : r.sum start ≤ budget) :
    start <+: r.fitting budget text := by
  induction text generalizing start budget with
  | nil =>
    rw [List.prefix_nil] at hstart
    subst hstart
    exact List.nil_prefix
  | cons c rest ih =>
    cases start with
    | nil => exact List.nil_prefix
    | cons d more =>
      obtain ⟨rfl, hmore⟩ := List.cons_prefix_cons.1 hstart
      rw [sum_cons] at hle
      have hfits : r.char d ≤ budget := by omega
      unfold fitting
      rw [if_pos hfits, List.prefix_cons_inj]
      apply ih hmore
      omega

/-- A smaller budget keeps the same start if that fits. -/
theorem fitting_of_sum_le (hle : r.sum (r.fitting m text) ≤ k) (hkm : k ≤ m) :
    r.fitting k text = r.fitting m text := by
  have hshort : r.fitting k text <+: r.fitting m text := by
    apply isPrefix_fitting (r.fitting_isPrefix k text)
    exact (r.sum_fitting_le k text).trans hkm
  have hlong : r.fitting m text <+: r.fitting k text :=
    isPrefix_fitting (r.fitting_isPrefix m text) hle
  exact hshort.eq_of_length_le hlong.length_le

/-- What stands behind a start that does not fit makes no difference. -/
theorem fitting_append_of_lt (h : budget < r.sum start) (rest : List Char) :
    r.fitting budget (start ++ rest) = r.fitting budget start := by
  induction start generalizing budget with
  | nil => exact absurd h (Nat.not_lt_zero budget)
  | cons c start ih =>
    rw [List.cons_append]
    unfold fitting
    split_ifs with hfits
    · rw [sum_cons] at h
      rw [ih (by omega)]
    · rfl

/-! ### Cutting -/

/-- Widths add up along a text: its starts are as wide as their characters together, with the
ellipsis behind them and without, and the ellipsis takes one column. -/
structure Additive (r : Ruler) (text : List Char) : Prop where
  char_ellipsis : r.char ellipsis = 1
  text_start : ∀ start, start <+: text → r.text start = r.sum start
  text_cut : ∀ start, start <+: text → r.text (start ++ [ellipsis]) = r.sum (start ++ [ellipsis])

/-- If a text is always as wide as its characters together, this holds along every text. -/
theorem additive_of_forall (hsum : ∀ text, r.text text = r.sum text)
    (hellipsis : r.char ellipsis = 1) (text : List Char) : r.Additive text :=
  ⟨hellipsis, fun start _ => hsum start, fun start _ => hsum (start ++ [ellipsis])⟩

/-- On a terminal widths add up along every plain text. -/
theorem additive_terminal (h : ∀ c ∈ text, isPlain c = true) : terminal.Additive text where
  char_ellipsis := by decide +kernel
  text_start := fun _ hstart => width_of_isPlain (fun c hc => h c (hstart.subset hc))
  text_cut := by
    intro start hstart
    apply width_of_isPlain
    intro c hc
    rcases List.mem_append.1 hc with hc | hc
    · exact h c (hstart.subset hc)
    · obtain rfl := List.mem_singleton.1 hc
      decide +kernel

namespace Additive

theorem text_cut_fitting (h : r.Additive text) (budget : Nat) :
    r.text (r.fitting budget text ++ [ellipsis]) = r.sum (r.fitting budget text) + 1 := by
  rw [h.text_cut _ (r.fitting_isPrefix budget text), sum_append, sum_cons, sum_nil,
    h.char_ellipsis]

end Additive

theorem truncate_of_lt (h : m < r.text text) :
    r.truncate text m = r.fitting (m - 1) text ++ [ellipsis] := by
  rw [truncate, if_neg (by omega)]

theorem text_truncate_le (h : r.Additive text) (hm : 0 < m) : r.text (r.truncate text m) ≤ m := by
  rcases Nat.lt_or_ge m (r.text text) with hwide | hfits
  · have hkept := r.sum_fitting_le (m - 1) text
    rw [truncate_of_lt hwide, h.text_cut_fitting]
    omega
  · rwa [truncate_of_text_le hfits]

theorem truncate_eq_self_iff (h : r.Additive text) (hm : 0 < m) :
    r.truncate text m = text ↔ r.text text ≤ m := by
  refine ⟨fun heq => ?_, truncate_of_text_le⟩
  rw [← heq]
  exact text_truncate_le h hm

/-- **Two cuts are one**: the narrower of them. -/
theorem truncate_truncate (h : r.Additive text) (hm : 0 < m) (hk : 0 < k) :
    r.truncate (r.truncate text m) k = r.truncate text (min m k) := by
  rcases Nat.lt_or_ge k m with hkm | hmk
  · rw [Nat.min_eq_right (Nat.le_of_lt hkm)]
    rcases Nat.lt_or_ge m (r.text text) with hwide | hfits
    · rw [truncate_of_lt hwide, truncate_of_lt (hkm.trans hwide)]
      have hcut := h.text_cut_fitting (m - 1)
      rcases Nat.lt_or_ge k (r.sum (r.fitting (m - 1) text) + 1) with hlong | hshort
      · -- the second cut is inside the start that the first one kept
        have hlt : k - 1 < r.sum (r.fitting (m - 1) text) := by omega
        obtain ⟨rest, hrest⟩ := r.fitting_isPrefix (m - 1) text
        rw [truncate_of_lt (by omega), fitting_append_of_lt hlt]
        nth_rewrite 2 [← hrest]
        rw [fitting_append_of_lt hlt]
      · -- a wide character has left a column free, which the second cut takes away
        have hle : r.sum (r.fitting (m - 1) text) ≤ k - 1 := by omega
        rw [truncate_of_text_le (by omega), fitting_of_sum_le hle (by omega)]
    · rw [truncate_of_text_le hfits]
  · -- what has been cut fits, so it is not cut again
    rw [Nat.min_eq_left hmk]
    exact truncate_of_text_le ((text_truncate_le h hm).trans hmk)

/-! ### The laws of cutting -/

/-- The start of a text that is kept in `budget` columns: every start that fits is part of it. -/
structure Keeps (r : Ruler) (budget : Nat) (text start : List Char) : Prop where
  isPrefix : start <+: text
  text_le : r.text start ≤ budget
  longest : ∀ other, other <+: text → r.text other ≤ budget → other <+: start

theorem Additive.keeps_fitting (h : r.Additive text) (budget : Nat) :
    r.Keeps budget text (r.fitting budget text) where
  isPrefix := r.fitting_isPrefix budget text
  text_le := by
    rw [h.text_start _ (r.fitting_isPrefix budget text)]
    exact r.sum_fitting_le budget text
  longest := by
    intro other hother hle
    rw [h.text_start other hother] at hle
    exact isPrefix_fitting hother hle

/-- What cutting a text to a positive number of columns does to it. -/
structure Truncates (r : Ruler) (text : List Char) : Prop where
  text_le : ∀ m, 0 < m → r.text (r.truncate text m) ≤ m
  eq_self_iff : ∀ m, 0 < m → (r.truncate text m = text ↔ r.text text ≤ m)
  /-- What is too wide is cut after the longest start that leaves a column for the ellipsis. -/
  cut : ∀ m, 0 < m → m < r.text text →
    ∃ start, r.Keeps (m - 1) text start ∧ r.truncate text m = start ++ [ellipsis]
  truncate_truncate : ∀ m k, 0 < m → 0 < k →
    r.truncate (r.truncate text m) k = r.truncate text (min m k)
  idempotent : ∀ m, 0 < m → r.truncate (r.truncate text m) m = r.truncate text m

theorem Additive.truncates (h : r.Additive text) : r.Truncates text where
  text_le := fun _ hm => text_truncate_le h hm
  eq_self_iff := fun _ hm => truncate_eq_self_iff h hm
  cut := fun m _ hwide => ⟨r.fitting (m - 1) text, h.keeps_fitting (m - 1), truncate_of_lt hwide⟩
  truncate_truncate := fun _ _ hm hk => truncate_truncate h hm hk
  idempotent := fun m hm => by rw [truncate_truncate h hm hm, Nat.min_self]

/-- **A cut text fits, loses no more than it has to, and cutting it again is cutting it once.**
This holds of every text if texts are always as wide as their characters together and the ellipsis
takes one column, and on a terminal, where they are not always, it holds of every plain text. -/
theorem truncates_of_sum :
    (∀ r : Ruler, (∀ text, r.text text = r.sum text) → r.char ellipsis = 1 →
      ∀ text, r.Truncates text) ∧
    ∀ text, (∀ c ∈ text, isPlain c = true) → terminal.Truncates text :=
  ⟨fun _ hsum hellipsis text => (additive_of_forall hsum hellipsis text).truncates,
    fun _ hplain => (additive_terminal hplain).truncates⟩

/-- An accent is kept with its letter.  The wide character behind it does not fit, so a column is
left free before the ellipsis, and to cut that one off as well changes nothing.  A terminal and the
ruler that adds up the characters agree on such a text. -/
theorem truncates_of_sum_wide :
    let text := "日e\u0301語x".toList
    let r : Ruler := ⟨terminal.char, terminal.sum⟩
    (∀ c ∈ text, isPlain c = true) ∧ r.text text = terminal.text text ∧
      r.Truncates text ∧ terminal.Truncates text ∧
      Text.truncate text 5 = "日e\u0301…".toList ∧ Text.truncate text 4 = "日e\u0301…".toList := by
  intro text r
  have hplain : ∀ c ∈ text, isPlain c = true := List.all_eq_true.1 (by decide +kernel)
  obtain ⟨hruler, hterminal⟩ := truncates_of_sum
  exact ⟨hplain, (width_of_isPlain hplain).symm, hruler r (fun _ => rfl) (by decide +kernel) text,
    hterminal text hplain, by decide +kernel, by decide +kernel⟩

end Ruler

end Lineage.Text
