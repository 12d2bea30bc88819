import Lineage.Proofs.Blocks
import Lineage.Proofs.Lines
import Mathlib.Data.List.Chain

/-!
# Carriage returns before newlines

Of a text in which each carriage return stands before a newline, `bare` is the text without them,
and `bareAt` sends a place of the text to its place there.  Two places go to one place only around a
carriage return, and what reads the text around braces and lines sees no difference: the balance of
braces (`balance_bare`), the ends of blocks (`blockEnd_bareAt`), comments (`inComment_bare`) and the
words of a text (`words_bare`).
-/

namespace Lineage

namespace Text

/-- A text without its carriage returns. -/
def bare (text : List Char) : List Char :=
  text.filter (· != '\r')

/-- The place of the bare text that a place of a text goes to. -/
def bareAt (text : List Char) (i : Nat) : Nat :=
  (bare (text.take i)).length

/-- A text with a carriage return before each newline. -/
def withReturns (text : List Char) : List Char :=
  text.flatMap (fun c => if c == '\n' then ['\r', '\n'] else [c])

/-- Each carriage return is followed by a newline. -/
def Paired (text : List Char) : Prop :=
  ∀ i, text[i]? = some '\r' → text[i + 1]? = some '\n'

/-- A place between a carriage return and what follows it. -/
def Between (text : List Char) (i : Nat) : Prop :=
  ∃ j, j + 1 = i ∧ text[j]? = some '\r'

/-- Each carriage return is followed by a newline or by nothing. -/
def Linked (text : List Char) : Prop :=
  text.IsChain (fun c d => c = '\r' → d = '\n')

/-! ### Places -/

section Places

variable {text : List Char} {i j : Nat} {c : Char}

@[simp]
theorem bare_nil : bare [] = [] := rfl

@[simp]
theorem bare_return (text : List Char) : bare ('\r' :: text) = bare text := rfl

theorem bare_cons (hc : c ≠ '\r') (text : List Char) : bare (c :: text) = c :: bare text :=
  List.filter_cons_of_pos (by simpa using hc)

@[simp]
theorem bare_append (text more : List Char) : bare (text ++ more) = bare text ++ bare more :=
  List.filter_append ..

theorem bare_eq_self (h : '\r' ∉ text) : bare text = text := by
  refine List.filter_eq_self.2 (fun c hc => ?_)
  rw [bne_iff_ne]
  rintro rfl
  exact h hc

theorem take_bareAt (text : List Char) (i : Nat) :
    (bare text).take (bareAt text i) = bare (text.take i) := by
  conv_lhs => rw [← List.take_append_drop i text, bare_append]
  rw [List.take_append_drop]
  exact List.take_left

theorem drop_bareAt (text : List Char) (i : Nat) :
    (bare text).drop (bareAt text i) = bare (text.drop i) := by
  conv_lhs => rw [← List.take_append_drop i text, bare_append]
  rw [List.take_append_drop]
  exact List.drop_left

theorem bareAt_length (text : List Char) : bareAt text text.length = (bare text).length := by
  rw [bareAt, List.take_length]

theorem bareAt_add (text : List Char) (i n : Nat) :
    bareAt text (i + n) = bareAt text i + bareAt (text.drop i) n := by
  rw [bareAt, List.take_add, bare_append, List.length_append]
  rfl

theorem bareAt_mono (text : List Char) (h : i ≤ j) : bareAt text i ≤ bareAt text j := by
  obtain ⟨n, rfl⟩ := Nat.exists_eq_add_of_le h
  rw [bareAt_add]
  exact Nat.le_add_right _ _

theorem bareAt_le (text : List Char) (i : Nat) : bareAt text i ≤ (bare text).length := by
  conv_rhs => rw [← List.take_append_drop i text, bare_append, List.length_append]
  exact Nat.le_add_right _ _

/-- The rest of a text is not shorter than the rest of the bare one. -/
theorem length_sub_bareAt_le (text : List Char) (i : Nat) :
    (bare text).length - bareAt text i ≤ text.length - i := by
  rw [← List.length_drop, drop_bareAt, ← List.length_drop]
  exact List.length_filter_le _ _

theorem bareAt_succ (h : text[i]? = some c) (hc : c ≠ '\r') :
    bareAt text (i + 1) = bareAt text i + 1 := by
  have hbare : bare [c] = [c] := bare_cons hc []
  rw [bareAt, List.take_add_one, h, bare_append, Option.toList_some, hbare, List.length_append]
  rfl

theorem bareAt_succ_return (h : text[i]? = some '\r') : bareAt text (i + 1) = bareAt text i := by
  rw [bareAt, List.take_add_one, h, bare_append, Option.toList_some, bare_return, bare_nil,
    List.append_nil]
  rfl

theorem getElem?_bareAt (h : text[i]? ≠ some '\r') : (bare text)[bareAt text i]? = text[i]? := by
  rw [← List.head?_drop, drop_bareAt, ← List.head?_drop] at *
  cases hrest : text.drop i with
  | nil => rfl
  | cons c rest =>
    rw [hrest, List.head?_cons] at h
    rw [bare_cons (fun hc => h (congrArg some hc)), List.head?_cons, List.head?_cons]

theorem getElem?_bareAt_return (htext : Paired text) (h : text[i]? = some '\r') :
    (bare text)[bareAt text i]? = some '\n' := by
  have hnewline := htext i h
  rw [← bareAt_succ_return h, getElem?_bareAt (by rw [hnewline]; decide), hnewline]

/-- Between a carriage return and its newline stands a newline. -/
theorem Between.getElem? (htext : Paired text) (h : Between text i) : text[i]? = some '\n' := by
  obtain ⟨j, rfl, hj⟩ := h
  exact htext j hj

theorem not_between_length (htext : Paired text) : ¬ Between text text.length := by
  intro h
  have hnewline := h.getElem? htext
  rw [List.getElem?_eq_none (Nat.le_refl _)] at hnewline
  cases hnewline

theorem not_between_succ (h : text[i]? = some c) (hc : c ≠ '\r') : ¬ Between text (i + 1) := by
  rintro ⟨j, hj, hreturn⟩
  obtain rfl : j = i := Nat.succ.inj hj
  rw [h] at hreturn
  exact hc (Option.some.inj hreturn)

/-- Apart from the places between carriage returns and newlines, places keep their order. -/
theorem bareAt_lt_iff (hj : ¬ Between text j) (hlength : j ≤ text.length) (i : Nat) :
    bareAt text i < bareAt text j ↔ i < j := by
  constructor
  · intro hlt
    by_contra hle
    have := bareAt_mono text (Nat.le_of_not_lt hle)
    omega
  · intro hlt
    obtain ⟨k, rfl⟩ : ∃ k, j = k + 1 := Nat.exists_eq_succ_of_ne_zero (by omega)
    -- the character before `j` is no carriage return, so it counts in the bare text
    obtain ⟨c, hc⟩ : ∃ c, text[k]? = some c := ⟨_, List.getElem?_eq_getElem (by omega)⟩
    have hreturn : c ≠ '\r' := by
      rintro rfl
      exact hj ⟨k, rfl, hc⟩
    rw [bareAt_succ hc hreturn]
    exact Nat.lt_succ_of_le (bareAt_mono text (by omega))

/-! ### Line endings -/

theorem withReturns_cons (c : Char) (text : List Char) :
    withReturns (c :: text) = (if c == '\n' then ['\r', '\n'] else [c]) ++ withReturns text :=
  List.flatMap_cons

theorem bare_withReturns (h : '\r' ∉ text) : bare (withReturns text) = text := by
  induction text with
  | nil => rfl
  | cons c rest ih =>
    obtain ⟨hne, hrest⟩ := List.ne_and_not_mem_of_not_mem_cons h
    rw [withReturns_cons, bare_append, ih hrest]
    split_ifs with hc
    · rw [beq_iff_eq.1 hc]
      rfl
    · rw [bare_cons hne.symm]
      rfl

theorem Paired.cons (hc : c ≠ '\r') (h : Paired text) : Paired (c :: text) := by
  intro i hi
  cases i with
  | zero => exact absurd (Option.some.inj hi) hc
  | succ i => exact h i hi

theorem Paired.cons_return (h : Paired text) : Paired ('\r' :: '\n' :: text) := by
  intro i hi
  cases i with
  | zero => rfl
  | succ i => exact h.cons (by decide) i hi

theorem paired_withReturns (h : '\r' ∉ text) : Paired (withReturns text) := by
  induction text with
  | nil =>
    intro i hi
    cases hi
  | cons c rest ih =>
    obtain ⟨hne, hrest⟩ := List.ne_and_not_mem_of_not_mem_cons h
    rw [withReturns_cons]
    split_ifs
    · exact (ih hrest).cons_return
    · exact (ih hrest).cons hne.symm

/-! ### Parts -/

theorem Paired.linked (h : Paired text) : Linked text := by
  refine List.isChain_iff_getElem.2 (fun i hi hreturn => ?_)
  have hnewline := h i (by rw [List.getElem?_eq_getElem (by omega), hreturn])
  rw [List.getElem?_eq_getElem hi] at hnewline
  exact Option.some.inj hnewline

theorem Linked.part {part : List Char} (h : Linked text) (hpart : part <:+: text) :
    Linked part :=
  List.IsChain.infix h hpart

theorem Linked.tail (h : Linked (c :: text)) : Linked text :=
  List.IsChain.tail h

theorem slice_bareAt (text : List Char) (h : i ≤ j) :
    Source.slice (bare text) (bareAt text i) (bareAt text j) = bare (Source.slice text i j) := by
  obtain ⟨n, rfl⟩ := Nat.exists_eq_add_of_le h
  rw [Source.slice, Source.slice, drop_bareAt, bareAt_add, Nat.add_sub_cancel_left,
    Nat.add_sub_cancel_left, take_bareAt]

theorem Paired.slice (h : Paired text) (hj : ¬ Between text j) :
    Paired (Source.slice text i j) := by
  intro k hk
  have hlt : k < j - i := by
    by_contra hle
    rw [Source.slice, List.getElem?_eq_none (by rw [List.length_take]; omega)] at hk
    cases hk
  rw [Source.slice, List.getElem?_take_of_lt hlt, List.getElem?_drop] at hk
  have hne : i + k + 1 ≠ j := fun heq => hj ⟨i + k, heq, hk⟩
  rw [Source.slice, List.getElem?_take_of_lt (by omega), List.getElem?_drop]
  exact h (i + k) hk

end Places

/-! ### Words -/

section Words

variable {text : List Char} {cut : Char → Bool}

/-- Apart from newlines, a bare text starts with the character that the text starts with. -/
theorem head?_bare (h : Linked text) {c : Char} (hc : c ≠ '\r' ∧ c ≠ '\n') :
    ((bare text).head? == some c) = (text.head? == some c) := by
  cases text with
  | nil => rfl
  | cons d rest =>
    by_cases hd : d = '\r'
    · subst hd
      cases rest with
      | nil => simp [hc.1.symm]
      | cons e rest =>
        obtain rfl : e = '\n' := (List.isChain_cons_cons.1 h).1 rfl
        rw [bare_return, bare_cons (by decide)]
        simp [hc.1.symm, hc.2.symm]
    · rw [bare_cons hd, List.head?_cons, List.head?_cons]

/-- The pieces of the bare text are the bare pieces. -/
theorem pieces_bare (hcut : cut '\r' = false) (text : List Char) :
    pieces cut (bare text) = (pieces cut text).map bare := by
  induction text with
  | nil => rfl
  | cons c rest ih =>
    by_cases hc : cut c = true
    · have hne : c ≠ '\r' := by
        rintro rfl
        rw [hcut] at hc
        cases hc
      rw [bare_cons hne, pieces_cons_of_pos hc, pieces_cons_of_pos hc, ih]
      rfl
    · obtain ⟨part, more, hparts, hcons⟩ := pieces_cons_of_neg hc rest
      rw [hcons, List.map_cons]
      rw [hparts, List.map_cons] at ih
      by_cases hne : c = '\r'
      · rw [hne, bare_return, bare_return, ih]
      · obtain ⟨part', more', hparts', hcons'⟩ := pieces_cons_of_neg hc (bare rest)
        rw [ih] at hparts'
        rw [bare_cons hne, bare_cons hne, hcons', ← (List.cons.inj hparts').1,
          ← (List.cons.inj hparts').2]

theorem isPrefix_of_pieces {part : List Char} {more : List (List Char)}
    (h : pieces cut text = part :: more) : part <+: text := by
  induction text generalizing part more with
  | nil =>
    obtain rfl : [] = part := (List.cons.inj h).1
    exact List.nil_prefix
  | cons c rest ih =>
    by_cases hc : cut c = true
    · rw [pieces_cons_of_pos hc] at h
      rw [← (List.cons.inj h).1]
      exact List.nil_prefix
    · obtain ⟨first, others, hparts, hcons⟩ := pieces_cons_of_neg hc rest
      rw [hcons] at h
      rw [← (List.cons.inj h).1]
      exact List.cons_prefix_cons.2 ⟨rfl, ih hparts⟩

theorem isInfix_of_mem_pieces {part : List Char} (h : part ∈ pieces cut text) :
    part <:+: text := by
  induction text with
  | nil =>
    obtain rfl := List.mem_singleton.1 h
    exact List.nil_infix
  | cons c rest ih =>
    by_cases hc : cut c = true
    · rw [pieces_cons_of_pos hc, List.mem_cons] at h
      rcases h with rfl | h
      · exact List.nil_infix
      · exact List.infix_cons (ih h)
    · obtain ⟨first, others, hparts, hcons⟩ := pieces_cons_of_neg hc rest
      rw [hcons, List.mem_cons] at h
      rcases h with rfl | h
      · exact (isPrefix_of_pieces hcons).isInfix
      · exact List.infix_cons (ih (by rw [hparts]; exact List.mem_cons_of_mem first h))

/-- The first piece between blanks is the same without carriage returns, and so are the words
after it. -/
theorem exists_pieces_bare (h : Linked text) :
    ∃ part more more', pieces isBlank text = part :: more ∧
      pieces isBlank (bare text) = part :: more' ∧
      more.filter (fun part => !part.isEmpty) = more'.filter (fun part => !part.isEmpty) := by
  induction text with
  | nil => exact ⟨[], [], [], rfl, rfl, rfl⟩
  | cons c rest ih =>
    obtain ⟨part, more, more', hparts, hparts', hmore⟩ := ih h.tail
    by_cases hreturn : c = '\r'
    · -- the carriage return adds an empty piece, which is no word
      subst hreturn
      have hpart : part = [] := by
        cases rest with
        | nil => exact (List.cons.inj hparts).1.symm
        | cons d rest =>
          obtain rfl : d = '\n' := (List.isChain_cons_cons.1 h).1 rfl
          exact (List.cons.inj hparts).1.symm
      subst hpart
      refine ⟨[], [] :: more, more', ?_, hparts', hmore⟩
      rw [pieces_cons_of_pos (by decide), hparts]
    · rw [bare_cons hreturn]
      by_cases hc : isBlank c = true
      · refine ⟨[], part :: more, part :: more', ?_, ?_, ?_⟩
        · rw [pieces_cons_of_pos hc, hparts]
        · rw [pieces_cons_of_pos hc, hparts']
        · rw [List.filter_cons, List.filter_cons, hmore]
      · obtain ⟨first, others, hfirst, hcons⟩ := pieces_cons_of_neg hc rest
        obtain ⟨first', others', hfirst', hcons'⟩ := pieces_cons_of_neg hc (bare rest)
        rw [hparts] at hfirst
        rw [hparts'] at hfirst'
        obtain ⟨rfl, rfl⟩ := List.cons.inj hfirst
        obtain ⟨rfl, rfl⟩ := List.cons.inj hfirst'
        exact ⟨c :: part, more, more', hcons, hcons', hmore⟩

/-- A carriage return ends a word, as the newline after it does. -/
theorem words_bare (h : Linked text) : words (bare text) = words text := by
  obtain ⟨part, more, more', hparts, hparts', hmore⟩ := exists_pieces_bare h
  rw [words, words, hparts, hparts', List.filter_cons, List.filter_cons, hmore]

theorem takeWhile_bare {p : Char → Bool} (hp : p '\r' = true) (text : List Char) :
    (bare text).takeWhile p = bare (text.takeWhile p) := by
  induction text with
  | nil => rfl
  | cons c rest ih =>
    by_cases hreturn : c = '\r'
    · rw [hreturn, bare_return, List.takeWhile_cons_of_pos hp, bare_return, ih]
    · rw [bare_cons hreturn]
      by_cases hc : p c = true
      · rw [List.takeWhile_cons_of_pos hc, List.takeWhile_cons_of_pos hc, bare_cons hreturn, ih]
      · rw [List.takeWhile_cons_of_neg hc, List.takeWhile_cons_of_neg hc, bare_nil]

end Words

end Text

namespace Source

open Text

variable {text : List Char}

/-! ### Inheritance lists -/

theorem heritageEntry_bare (h : Linked text) (skipped : List String) :
    heritageEntry skipped (bare text) = heritageEntry skipped text := by
  have hkept := h.part (List.takeWhile_prefix (· != '(')).isInfix
  rw [heritageEntry, heritageEntry, takeWhile_bare (by decide), words_bare hkept]

theorem splitHeritage_bare (h : Linked text) (skipped : List String) :
    splitHeritage (bare text) skipped = splitHeritage text skipped := by
  have hentries : ((pieces (· == ',') text).map bare).map (heritageEntry skipped) =
      (pieces (· == ',') text).map (heritageEntry skipped) := by
    rw [List.map_map]
    refine List.map_congr_left (fun part hpart => ?_)
    exact heritageEntry_bare (h.part (isInfix_of_mem_pieces hpart)) skipped
  rw [splitHeritage, splitHeritage, pieces_bare (by decide), hentries]

/-! ### Lines and braces -/

theorem lineSpan_bare (text : List Char) : lineSpan (bare text) = lineSpan text := by
  rw [lineSpan, lineSpan, bare, List.count_filter (by decide)]

theorem balance_bare (text : List Char) : balance (bare text) = balance text := by
  induction text with
  | nil => rfl
  | cons c rest ih =>
    by_cases hc : c = '\r'
    · rw [hc, bare_return, ih, balance_cons]
      exact (Int.zero_add _).symm
    · rw [bare_cons hc, balance_cons, balance_cons, ih]

theorem closing?_bare (depth : Nat) (text : List Char) :
    closing? depth 0 (bare text) = (closing? depth 0 text).map (bareAt text) := by
  induction text generalizing depth with
  | nil => rfl
  | cons c rest ih =>
    by_cases hc : c = '\r'
    · -- a carriage return is no brace: it moves the end by one place, and `bareAt` undoes that
      subst hc
      have hskip : closing? depth 0 ('\r' :: rest) = closing? depth 1 rest := rfl
      rw [bare_return, ih, hskip, closing?_eq_map depth 1, Option.map_map]
      congr 1
      funext n
      show bareAt rest n = bareAt ('\r' :: rest) (1 + n)
      rw [bareAt_add, bareAt_succ_return rfl]
      exact (Nat.zero_add _).symm
    · have hstep : ∀ depth, closing? depth (0 + 1) (bare rest) =
          (closing? depth (0 + 1) rest).map (bareAt (c :: rest)) := by
        intro depth
        rw [closing?_eq_map, closing?_eq_map depth (0 + 1), ih, Option.map_map, Option.map_map]
        congr 1
        funext n
        show 0 + 1 + bareAt rest n = bareAt (c :: rest) (0 + 1 + n)
        rw [bareAt_add, bareAt_succ rfl hc]
        rfl
      rw [bare_cons hc]
      unfold closing?
      split_ifs
      · exact hstep (depth + 1)
      · rw [Option.map_some, bareAt_succ rfl hc]
        rfl
      · exact hstep (depth - 1)
      · exact hstep depth

theorem blockEnd_bareAt (text : List Char) (i : Nat) :
    blockEnd (bare text) (bareAt text i) = bareAt text (blockEnd text i) := by
  rw [blockEnd, blockEnd, blockLength, blockLength, drop_bareAt, closing?_bare, bareAt_add]
  cases closing? 0 0 (text.drop i) with
  | none => rw [Option.map_none, Option.getD_none, Option.getD_none, bareAt_length]
  | some n => rfl

theorem getElem?_of_closing? {depth read n : Nat} (h : closing? depth read text = some n) :
    ∃ k, n = read + k + 1 ∧ text[k]? = some '}' := by
  induction text generalizing depth read with
  | nil => cases h
  | cons c rest ih =>
    have hstep : ∀ depth, closing? depth (read + 1) rest = some n →
        ∃ k, n = read + k + 1 ∧ (c :: rest)[k]? = some '}' := by
      intro depth hclosing
      obtain ⟨k, hn, hk⟩ := ih hclosing
      exact ⟨k + 1, by omega, hk⟩
    unfold closing? at h
    split_ifs at h with hopen hclose hdepth
    · exact hstep _ h
    · exact ⟨0, (Option.some.inj h).symm, congrArg some (beq_iff_eq.1 hclose)⟩
    · exact hstep _ h
    · exact hstep _ h

/-- A block does not end between a carriage return and its newline. -/
theorem not_between_blockEnd (htext : Paired text) {i : Nat} (hi : i ≤ text.length) :
    ¬ Between text (blockEnd text i) := by
  rw [blockEnd, blockLength]
  cases hclosing : closing? 0 0 (text.drop i) with
  | none =>
    rw [Option.getD_none, List.length_drop, Nat.add_sub_cancel' hi]
    exact not_between_length htext
  | some n =>
    obtain ⟨k, rfl, hk⟩ := getElem?_of_closing? hclosing
    rw [List.getElem?_drop] at hk
    have hnot := not_between_succ hk (by decide)
    rwa [Option.getD_some, Nat.zero_add, ← Nat.add_assoc]

/-! ### Comments -/

theorem lastLine_bare (text : List Char) : lastLine (bare text) = bare (lastLine text) := by
  have hreverse : ∀ text : List Char, (bare text).reverse = bare text.reverse := fun text =>
    List.filter_reverse.symm
  rw [lastLine, lastLine, hreverse, takeWhile_bare (by decide), hreverse]

theorem isSuffix_lastLine (text : List Char) : lastLine text <:+ text := by
  rw [lastLine, ← List.reverse_prefix, List.reverse_reverse]
  exact List.takeWhile_prefix _

theorem contains_slashes_cons (c : Char) (rest : List Char) :
    contains ['/', '/'] (c :: rest) =
      (c == '/' && rest.head? == some '/' || contains ['/', '/'] rest) := by
  cases rest with
  | nil => simp [contains, List.isPrefixOf]
  | cons d rest => simp [contains, List.isPrefixOf, Bool.beq_comm]

theorem contains_bare (h : Linked text) :
    contains ['/', '/'] (bare text) = contains ['/', '/'] text := by
  induction text with
  | nil => rfl
  | cons c rest ih =>
    by_cases hc : c = '\r'
    · rw [hc, bare_return, ih h.tail, contains_slashes_cons]
      rfl
    · rw [bare_cons hc, contains_slashes_cons, contains_slashes_cons,
        head?_bare h.tail (by decide), ih h.tail]

/-- Whether the last start of a comment comes after the last end of one. -/
def isLater : Option Nat → Option Nat → Bool
  | some opened, some closed => closed < opened
  | some _, none => true
  | none, _ => false

theorem isLater_of_forall_lt {closed : Option Nat} {n : Nat} (h : ∀ k ∈ closed, k < n) :
    isLater (some n) closed = true := by
  cases closed with
  | none => rfl
  | some k => exact decide_eq_true (h k rfl)

theorem not_isLater_of_forall_lt {opened : Option Nat} {n : Nat} (h : ∀ k ∈ opened, k < n) :
    isLater opened (some n) = false := by
  cases opened with
  | none => rfl
  | some k => exact decide_eq_false (Nat.not_lt.2 (Nat.le_of_lt (h k rfl)))

theorem inBlockComment_eq (text : List Char) : inBlockComment text =
    isLater (lastPair '/' '*' 0 none text) (lastPair '*' '/' 0 none text) := rfl

theorem lastPair_cons (a b c : Char) (i : Nat) (found : Option Nat) (rest : List Char) :
    lastPair a b i found (c :: rest) =
      lastPair a b (i + 1) (if c == a && rest.head? == some b then some i else found) rest := by
  cases rest with
  | nil => simp [lastPair]
  | cons d rest => simp [lastPair]

/-- The last start and the last end of a comment come in the same order without carriage returns:
what is found later lies after all that was found before. -/
theorem isLater_lastPair_bare (h : Linked text) {i j : Nat}
    {opened closed opened' closed' : Option Nat}
    (hopened : ∀ k ∈ opened, k < i) (hclosed : ∀ k ∈ closed, k < i)
    (hopened' : ∀ k ∈ opened', k < j) (hclosed' : ∀ k ∈ closed', k < j)
    (hlater : isLater opened closed = isLater opened' closed') :
    isLater (lastPair '/' '*' i opened (bare text)) (lastPair '*' '/' i closed (bare text)) =
      isLater (lastPair '/' '*' j opened' text) (lastPair '*' '/' j closed' text) := by
  induction text generalizing i j opened closed opened' closed' with
  | nil => exact hlater
  | cons c rest ih =>
    have hweaken : ∀ {found : Option Nat} {n : Nat}, (∀ k ∈ found, k < n) →
        ∀ k ∈ found, k < n + 1 :=
      fun hfound k hk => Nat.lt_succ_of_lt (hfound k hk)
    by_cases hc : c = '\r'
    · rw [hc, bare_return, lastPair_cons, lastPair_cons]
      exact ih h.tail hopened hclosed (hweaken hopened') (hweaken hclosed') hlater
    · rw [bare_cons hc, lastPair_cons, lastPair_cons, lastPair_cons, lastPair_cons,
        head?_bare h.tail (c := '*') (by decide), head?_bare h.tail (c := '/') (by decide)]
      have hnew : ∀ n : Nat, ∀ k ∈ some n, k < n + 1 := fun n k hk =>
        Option.some.inj hk ▸ Nat.lt_succ_self n
      by_cases hopen : (c == '/' && rest.head? == some '*') = true
      · -- a start lies after every end before it
        have hclose : ¬ (c == '*' && rest.head? == some '/') = true := by
          intro hclose
          simp only [Bool.and_eq_true, beq_iff_eq] at hopen hclose
          exact absurd (hopen.1.symm.trans hclose.1) (by decide)
        rw [if_pos hopen, if_pos hopen, if_neg hclose, if_neg hclose]
        refine ih h.tail (hnew i) (hweaken hclosed) (hnew j) (hweaken hclosed') ?_
        rw [isLater_of_forall_lt hclosed, isLater_of_forall_lt hclosed']
      · rw [if_neg hopen, if_neg hopen]
        by_cases hclose : (c == '*' && rest.head? == some '/') = true
        · -- an end lies after every start before it
          rw [if_pos hclose, if_pos hclose]
          refine ih h.tail (hweaken hopened) (hnew i) (hweaken hopened') (hnew j) ?_
          rw [not_isLater_of_forall_lt hopened, not_isLater_of_forall_lt hopened']
        · rw [if_neg hclose, if_neg hclose]
          exact ih h.tail (hweaken hopened) (hweaken hclosed) (hweaken hopened')
            (hweaken hclosed') hlater

theorem inComment_bare (h : Linked text) : inComment (bare text) = inComment text := by
  have hline := h.part (isSuffix_lastLine text).isInfix
  have hnone : ∀ k ∈ (none : Option Nat), k < 0 := fun _ hk => absurd hk (Option.not_mem_none _)
  have hblock := isLater_lastPair_bare h hnone hnone hnone hnone rfl
  rw [inComment, inComment, lastLine_bare, contains_bare hline, inBlockComment_eq,
    inBlockComment_eq, hblock]

end Source

end Lineage
