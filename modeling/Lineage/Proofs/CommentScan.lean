import Lineage.Proofs.Returns
import Lineage.Source.Offset
import Mathlib.Data.List.Induction
import Mathlib.Data.List.TakeWhile

/-!
# Comments read from left to right

Whether a place lies in a comment is answered by looking back from it: for two slashes on its line,
for the last start of a block comment and for the last end of one.  A reader who goes through the
text from left to right knows more, since the marks of one kind of comment mean nothing inside the
other (`regionAfter`).

The main statement is `inCommentAt?_eq_iff`: looking back gives the answer of the reader exactly if
the text before the place is not misread in one of three ways (`Misread`).  Each of them occurs
(`misread_marks`).
-/

namespace Lineage.Source

open Text

/-! ### Reading from left to right -/

/-- The part of a text that a reader is in. -/
inductive Region where
  | code
  | line
  | block
  deriving DecidableEq, Repr, Inhabited

/-- Reads on.  In code, two slashes start a comment that ends with the line, and a slash and a star
start one that ends with the next star and slash. -/
def readOn : Region → List Char → Region
  | .code, '/' :: '/' :: rest => readOn .line rest
  | .code, '/' :: '*' :: rest => readOn .block rest
  | .code, _ :: rest => readOn .code rest
  | .line, '\n' :: rest => readOn .code rest
  | .line, _ :: rest => readOn .line rest
  | .block, '*' :: '/' :: rest => readOn .code rest
  | .block, _ :: rest => readOn .block rest
  | region, [] => region

/-- The part of a text that a reader is in at its end. -/
def regionAfter (text : List Char) : Region :=
  readOn .code text

/-! ### Reading one character at a time -/

/-- What a reader knows who takes one character at a time: behind a slash in code, and behind a star
in a block comment, the next character decides. -/
inductive Reading where
  | code
  | slash
  | line
  | block
  | star
  deriving DecidableEq, Repr

namespace Reading

/-- The part of the text that is read. -/
def region : Reading → Region
  | code | slash => .code
  | line => .line
  | block | star => .block

/-- Takes one character. -/
def next : Reading → Char → Reading
  | code, c => if c = '/' then slash else code
  | slash, c => if c = '/' then line else if c = '*' then block else code
  | line, c => if c = '\n' then code else line
  | block, c => if c = '*' then star else block
  | star, c => if c = '/' then code else if c = '*' then star else block

/-- What is known after a text. -/
def after (text : List Char) : Reading :=
  text.foldl next code

/-- What is known where a part of a text starts. -/
def ofRegion : Region → Reading
  | .code => code
  | .line => line
  | .block => block

@[simp]
theorem region_ofRegion (r : Region) : (ofRegion r).region = r := by
  cases r <;> rfl

theorem after_append (text rest : List Char) :
    after (text ++ rest) = rest.foldl next (after text) :=
  List.foldl_append

theorem after_concat (text : List Char) (c : Char) : after (text ++ [c]) = next (after text) c :=
  after_append text [c]

/-- A slash that starts no comment is forgotten with the next character. -/
theorem region_slash {rest : List Char} (hslash : rest.head? ≠ some '/')
    (hstar : rest.head? ≠ some '*') :
    (rest.foldl next slash).region = (rest.foldl next code).region := by
  cases rest with
  | nil => rfl
  | cons c rest =>
    simp only [List.head?_cons, ne_eq, Option.some.injEq] at hslash hstar
    simp [next, hslash, hstar]

/-- A star that ends no comment is forgotten with the next character. -/
theorem region_star {rest : List Char} (hslash : rest.head? ≠ some '/') :
    (rest.foldl next star).region = (rest.foldl next block).region := by
  cases rest with
  | nil => rfl
  | cons c rest =>
    simp only [List.head?_cons, ne_eq, Option.some.injEq] at hslash
    simp [next, hslash]

/-- Taking one character at a time is reading. -/
theorem readOn_eq (r : Region) (text : List Char) :
    readOn r text = (text.foldl next (ofRegion r)).region := by
  fun_induction readOn r text with
  | case1 rest ih => simpa [ofRegion, next] using ih
  | case2 rest ih => simpa [ofRegion, next] using ih
  | case3 c rest hline hblock ih =>
    rw [ih, List.foldl_cons]
    by_cases hc : c = '/'
    · subst hc
      have hslash : rest.head? ≠ some '/' := by
        intro h
        obtain ⟨more, rfl⟩ := List.head?_eq_some_iff.1 h
        exact hline more rfl rfl
      have hstar : rest.head? ≠ some '*' := by
        intro h
        obtain ⟨more, rfl⟩ := List.head?_eq_some_iff.1 h
        exact hblock more rfl rfl
      exact (region_slash hslash hstar).symm
    · simp [ofRegion, next, hc]
  | case4 rest ih => simpa [ofRegion, next] using ih
  | case5 c rest hne ih =>
    have hc : c ≠ '\n' := hne
    rw [ih, List.foldl_cons]
    simp [ofRegion, next, hc]
  | case6 rest ih => simpa [ofRegion, next] using ih
  | case7 c rest hne ih =>
    rw [ih, List.foldl_cons]
    by_cases hc : c = '*'
    · subst hc
      have hslash : rest.head? ≠ some '/' := by
        intro h
        obtain ⟨more, rfl⟩ := List.head?_eq_some_iff.1 h
        exact hne more rfl rfl
      exact (region_star hslash).symm
    · simp [ofRegion, next, hc]
  | case8 r => simp

theorem regionAfter_eq (text : List Char) : regionAfter text = (after text).region :=
  readOn_eq .code text

/-! ### Staying in a comment -/

variable {text rest : List Char}

theorem foldl_line (h : '\n' ∉ rest) : rest.foldl next line = line := by
  induction rest with
  | nil => rfl
  | cons c rest ih =>
    rw [List.mem_cons, not_or] at h
    have hc : next line c = line := if_neg (Ne.symm h.1)
    rw [List.foldl_cons, hc, ih h.2]

/-- A block comment goes on as long as there is no end mark.  A star that was just read may not be
the first half of one. -/
theorem region_foldl_block {s : Reading} (hs : s = block ∨ s = star ∧ rest.head? ≠ some '/')
    (h : ¬ ['*', '/'] <:+: rest) : (rest.foldl next s).region = .block := by
  induction rest generalizing s with
  | nil =>
    rcases hs with rfl | ⟨rfl, _⟩
    · rfl
    · rfl
  | cons c rest ih =>
    rw [List.infix_cons_iff, not_or] at h
    rw [List.foldl_cons]
    apply ih _ h.2
    by_cases hc : c = '*'
    · subst hc
      refine Or.inr ⟨?_, fun hslash => ?_⟩
      · rcases hs with rfl | ⟨rfl, _⟩
        · rfl
        · rfl
      · obtain ⟨more, rfl⟩ := List.head?_eq_some_iff.1 hslash
        exact h.1 ⟨more, rfl⟩
    · refine Or.inl ?_
      rcases hs with rfl | ⟨rfl, hslash⟩
      · simp [next, hc]
      · simp only [List.head?_cons, ne_eq, Option.some.injEq] at hslash
        simp [next, hc, hslash]

/-! ### Where comments start -/

theorem next_eq_slash {s : Reading} {c : Char} (h : next s c = slash) : s = code ∧ c = '/' := by
  cases s <;> simp only [next] at h <;> split_ifs at h
  exact ⟨rfl, ‹_›⟩

theorem next_eq_line {s : Reading} {c : Char} (h : next s c = line) :
    s = slash ∧ c = '/' ∨ s = line ∧ c ≠ '\n' := by
  cases s <;> simp only [next] at h <;> split_ifs at h <;> simp_all

theorem region_next_eq_block {s : Reading} {c : Char} (h : (next s c).region = .block) :
    s = slash ∧ c = '*' ∨ s = block ∨ s = star ∧ c ≠ '/' := by
  cases s <;> simp only [next] at h <;> split_ifs at h <;> simp_all [region]

theorem next_of_region_block {s : Reading} (h : s.region = .block) : next s '*' = star := by
  cases s with
  | block | star => rfl
  | code | slash | line => cases h

/-- After a start mark in code, a block comment is read. -/
theorem after_opening {front : List Char} (h : after front = code) (rest : List Char) :
    after (front ++ '/' :: '*' :: rest) = rest.foldl next block := by
  rw [after_append, h]
  rfl

theorem exists_of_after_slash (h : after text = slash) :
    ∃ front, text = front ++ ['/'] ∧ after front = code := by
  induction text using List.reverseRecOn with
  | nil => cases h
  | append_singleton text c _ =>
    rw [after_concat] at h
    obtain ⟨hcode, rfl⟩ := next_eq_slash h
    exact ⟨text, rfl, hcode⟩

/-- In a line comment, there are two slashes and no newline behind them. -/
theorem exists_of_after_line (h : after text = line) :
    ∃ front rest, text = front ++ '/' :: '/' :: rest ∧ '\n' ∉ rest := by
  induction text using List.reverseRecOn with
  | nil => cases h
  | append_singleton text c ih =>
    rw [after_concat] at h
    rcases next_eq_line h with ⟨hslash, rfl⟩ | ⟨hline, hc⟩
    · obtain ⟨front, rfl, _⟩ := exists_of_after_slash hslash
      exact ⟨front, [], by simp, by simp⟩
    · obtain ⟨front, rest, rfl, hrest⟩ := ih hline
      exact ⟨front, rest ++ [c], by simp, by simp [hrest, Ne.symm hc]⟩

theorem not_isInfix_concat {c : Char} (h : ¬ ['*', '/'] <:+: rest)
    (hc : ∀ front, rest = front ++ ['*'] → c ≠ '/') : ¬ ['*', '/'] <:+: rest ++ [c] := by
  rw [List.infix_concat_iff, not_or]
  refine ⟨?_, h⟩
  rintro ⟨front, hfront⟩
  have hsplit : front ++ ['*'] ++ ['/'] = rest ++ [c] := by simpa using hfront
  obtain ⟨hrest, hlast⟩ := List.append_inj' hsplit rfl
  exact hc front hrest.symm (List.cons.inj hlast).1.symm

/-- In a block comment, there is a start mark in code and no end mark behind it. -/
theorem exists_of_region_block (h : (after text).region = .block) :
    ∃ front rest, text = front ++ '/' :: '*' :: rest ∧ after front = code ∧
      ¬ ['*', '/'] <:+: rest := by
  induction text using List.reverseRecOn with
  | nil => cases h
  | append_singleton text c ih =>
    rw [after_concat] at h
    rcases region_next_eq_block h with ⟨hslash, rfl⟩ | hblock | ⟨hstar, hc⟩
    · obtain ⟨front, rfl, hcode⟩ := exists_of_after_slash hslash
      exact ⟨front, [], by simp, hcode, by simp⟩
    · obtain ⟨front, rest, rfl, hcode, hrest⟩ := ih (by rw [hblock]; rfl)
      refine ⟨front, rest ++ [c], by simp, hcode, not_isInfix_concat hrest ?_⟩
      -- behind a star of the comment the reader would wait for the slash
      rintro more rfl
      exfalso
      have hmore : ¬ ['*', '/'] <:+: more := fun hpart =>
        hrest (hpart.trans (List.prefix_append more ['*']).isInfix)
      rw [after_opening hcode, List.foldl_append] at hblock
      have hstar := next_of_region_block (region_foldl_block (Or.inl rfl) hmore)
      exact absurd (hstar.symm.trans hblock) (by decide)
    · obtain ⟨front, rest, rfl, hcode, hrest⟩ := ih (by rw [hstar]; rfl)
      exact ⟨front, rest ++ [c], by simp, hcode, not_isInfix_concat hrest (fun _ _ => hc)⟩

end Reading

/-! ### Looking back -/

variable {text : List Char}

theorem contains_iff_isInfix (needle text : List Char) :
    contains needle text = true ↔ needle <:+: text := by
  induction text with
  | nil => simp [contains]
  | cons c rest ih =>
    rw [contains, Bool.or_eq_true, ih, List.isPrefixOf_iff_prefix, List.infix_cons_iff]

theorem newline_not_mem_lastLine (text : List Char) : '\n' ∉ lastLine text := by
  rw [lastLine, List.mem_reverse]
  intro h
  have := List.mem_takeWhile_imp h
  simp at this

theorem lastLine_append {rest : List Char} (h : '\n' ∉ rest) (text : List Char) :
    lastLine (text ++ rest) = lastLine text ++ rest := by
  have hall : ∀ c ∈ rest.reverse, (c != '\n') = true := by
    intro c hc
    rw [bne_iff_ne]
    rintro rfl
    exact h (List.mem_reverse.1 hc)
  rw [lastLine, List.reverse_append, List.takeWhile_append_of_pos hall, List.reverse_append,
    List.reverse_reverse]
  rfl

/-- Two slashes on the last line have no newline behind them. -/
theorem slashes_lastLine_iff : contains ['/', '/'] (lastLine text) = true ↔
    ∃ front rest, text = front ++ '/' :: '/' :: rest ∧ '\n' ∉ rest := by
  rw [contains_iff_isInfix]
  constructor
  · rintro ⟨before, rest, hline⟩
    obtain ⟨front, htext⟩ := isSuffix_lastLine text
    have hrest : '\n' ∉ rest := fun h => newline_not_mem_lastLine text (by simp [← hline, h])
    rw [← hline] at htext
    exact ⟨front ++ before, rest, by simp [← htext], hrest⟩
  · rintro ⟨front, rest, rfl, hrest⟩
    rw [lastLine_append (by simpa using hrest)]
    exact ⟨lastLine front, rest, by simp⟩

theorem pair_isPrefix_iff {a b c : Char} {rest : List Char} :
    [a, b] <+: c :: rest ↔ (c == a && rest.head? == some b) = true := by
  rw [List.cons_prefix_cons, Bool.and_eq_true, beq_iff_eq, beq_iff_eq, List.head?_eq_some_iff]
  refine and_congr eq_comm ⟨fun ⟨more, h⟩ => ⟨more, h.symm⟩, fun ⟨more, h⟩ => ⟨more, h.symm⟩⟩

/-- The place of the last pair, given the last one before the text. -/
theorem lastPair_eq_some_iff {a b : Char} {i n : Nat} {found : Option Nat} :
    lastPair a b i found text = some n ↔
      (∃ front rest, text = front ++ a :: b :: rest ∧ n = i + front.length ∧
        ¬ [a, b] <:+: b :: rest) ∨
      found = some n ∧ ¬ [a, b] <:+: text := by
  induction text generalizing i found with
  | nil => simp [lastPair]
  | cons c rest ih =>
    rw [lastPair_cons, ih, List.infix_cons_iff, pair_isPrefix_iff]
    by_cases hpair : (c == a && rest.head? == some b) = true
    · -- this pair is the last one unless another one follows
      rw [if_pos hpair]
      obtain ⟨rfl, more, rfl⟩ : c = a ∧ ∃ more, rest = b :: more := by
        simpa [List.head?_eq_some_iff] using hpair
      constructor
      · rintro (⟨front, rest, hrest, rfl, hlast⟩ | ⟨hn, hlast⟩)
        · exact Or.inl ⟨c :: front, rest, by simp [hrest], by simp; omega, hlast⟩
        · exact Or.inl ⟨[], more, rfl, by simpa using hn.symm, hlast⟩
      · rintro (⟨front, rest, hrest, rfl, hlast⟩ | ⟨_, hnot⟩)
        · cases front with
          | nil =>
            simp only [List.nil_append, List.cons.injEq, true_and] at hrest
            exact Or.inr ⟨rfl, hrest ▸ hlast⟩
          | cons d front =>
            simp only [List.cons_append, List.cons.injEq] at hrest
            exact Or.inl ⟨front, rest, hrest.2, by simp; omega, hlast⟩
        · exact absurd (Or.inl hpair) hnot
    · rw [if_neg hpair]
      constructor
      · rintro (⟨front, more, rfl, rfl, hlast⟩ | ⟨hn, hlast⟩)
        · exact Or.inl ⟨c :: front, more, rfl, by simp; omega, hlast⟩
        · exact Or.inr ⟨hn, not_or_intro hpair hlast⟩
      · rintro (⟨front, more, hrest, rfl, hlast⟩ | ⟨hn, hnot⟩)
        · cases front with
          | nil =>
            simp only [List.nil_append, List.cons.injEq] at hrest
            exact absurd (by simp [hrest]) hpair
          | cons d front =>
            simp only [List.cons_append, List.cons.injEq] at hrest
            exact Or.inl ⟨front, more, hrest.2, by simp; omega, hlast⟩
        · exact Or.inr ⟨hn, fun h => hnot (Or.inr h)⟩

theorem lastPair_eq_none_iff {a b : Char} {i : Nat} {found : Option Nat} :
    lastPair a b i found text = none ↔ found = none ∧ ¬ [a, b] <:+: text := by
  induction text generalizing i found with
  | nil => simp [lastPair]
  | cons c rest ih =>
    rw [lastPair_cons, ih, List.infix_cons_iff, pair_isPrefix_iff]
    by_cases hpair : (c == a && rest.head? == some b) = true
    · simp [hpair]
    · simp [hpair]

/-- What follows the longer front of a text is behind the first character after the shorter one. -/
theorem suffix_of_length_lt {front front' rest rest' : List Char} {c : Char}
    (h : front ++ rest = front' ++ c :: rest') (hlt : front'.length < front.length) :
    rest <:+ rest' := by
  have hsuffix : rest <:+ front' ++ c :: rest' := h ▸ List.suffix_append front rest
  have hsuffix' : rest' <:+ front' ++ c :: rest' :=
    (List.suffix_cons c rest').trans (List.suffix_append front' _)
  have hlength := congrArg List.length h
  rw [List.length_append, List.length_append, List.length_cons] at hlength
  exact List.suffix_of_suffix_length_le hsuffix hsuffix' (by omega)

theorem pair_isInfix (a b : Char) (rest : List Char) : [a, b] <:+: a :: b :: rest :=
  (List.prefix_append [a, b] rest).isInfix

/-- A block comment seems open where a start mark has no end mark behind it. -/
theorem inBlockComment_iff : inBlockComment text = true ↔
    ∃ front rest, text = front ++ '/' :: '*' :: rest ∧ ¬ ['*', '/'] <:+: '*' :: rest := by
  unfold inBlockComment
  cases hopened : lastPair '/' '*' 0 none text with
  | none =>
    have hnone := (lastPair_eq_none_iff.1 hopened).2
    refine iff_of_false (by simp) ?_
    rintro ⟨front, rest, rfl, _⟩
    exact hnone ⟨front, rest, by simp⟩
  | some o =>
    obtain ⟨front, rest, htext, rfl, hlast⟩ :=
      (lastPair_eq_some_iff.1 hopened).resolve_right (by simp)
    rw [Nat.zero_add]
    cases hclosed : lastPair '*' '/' 0 none text with
    | none =>
      have hnone := (lastPair_eq_none_iff.1 hclosed).2
      refine iff_of_true rfl ⟨front, rest, htext, fun h => hnone ?_⟩
      have hsuffix : '*' :: rest <:+ text := by
        rw [htext]
        exact (List.suffix_cons '/' _).trans (List.suffix_append front _)
      exact h.trans hsuffix.isInfix
    | some c =>
      obtain ⟨front', rest', htext', rfl, hlast'⟩ :=
        (lastPair_eq_some_iff.1 hclosed).resolve_right (by simp)
      rw [Nat.zero_add]
      show decide (front'.length < front.length) = true ↔ _
      rw [decide_eq_true_eq]
      constructor
      · intro hlt
        have hsuffix := suffix_of_length_lt (htext.symm.trans htext') hlt
        refine ⟨front, rest, htext, fun h => hlast' ?_⟩
        exact h.trans ((List.suffix_cons '/' ('*' :: rest)).trans hsuffix).isInfix
      · rintro ⟨front'', rest'', htext'', hnone⟩
        -- the start mark is not behind the last one, and the last end mark is before it
        have hle : front''.length ≤ front.length := by
          by_contra hlt
          have hsuffix := suffix_of_length_lt (htext''.symm.trans htext) (by omega)
          exact hlast ((pair_isInfix '/' '*' rest'').trans hsuffix.isInfix)
        have hle' : front'.length ≤ front''.length := by
          by_contra hlt
          have hsuffix := suffix_of_length_lt (htext'.symm.trans htext'') (by omega)
          exact hnone ((pair_isInfix '*' '/' rest').trans hsuffix.isInfix)
        have hne : front'.length ≠ front''.length := by
          intro heq
          have hsame := (List.append_inj (htext'.symm.trans htext'') heq).2
          exact absurd (List.cons.inj hsame).1 (by decide)
        omega

/-! ### Misread texts -/

/-- The ways in which looking back from the end of a text goes wrong. -/
inductive Misread (text : List Char) : Prop where
  /-- The place is in code, and on its line there are two slashes whose first one is in a block
  comment. -/
  | slashes (front rest : List Char) (outside : regionAfter text = .code)
      (split : text = front ++ '/' :: '/' :: rest) (sameLine : '\n' ∉ rest)
      (hidden : regionAfter front = .block)
  /-- The place is in code, and a slash and a star that start no block comment, because they are in
  a line comment or the slash ends a block comment, have no end mark behind them. -/
  | opening (front rest : List Char) (outside : regionAfter text = .code)
      (split : text = front ++ '/' :: '*' :: rest)
      (idle : regionAfter (front ++ ['/', '*']) ≠ .block) (last : ¬ ['*', '/'] <:+: '*' :: rest)
  /-- The place is in a block comment that starts with a slash, a star and a slash, no mark follows
  them, and there are no two slashes on the line of the place. -/
  | closing (front rest : List Char) (inside : regionAfter text = .block)
      (split : text = front ++ '/' :: '*' :: '/' :: rest) (starts : regionAfter front = .code)
      (last : ¬ ['/', '*'] <:+: '/' :: rest) (line : ¬ ['/', '/'] <:+: lastLine text)

open Reading

theorem inComment_iff (text : List Char) : inComment text = true ↔
    contains ['/', '/'] (lastLine text) = true ∨ inBlockComment text = true := by
  rw [inComment, Bool.or_eq_true]

/-- Two slashes outside a block comment, with no newline behind them, hide what follows. -/
theorem regionAfter_slashes {front rest : List Char} (hfront : regionAfter front ≠ .block)
    (hrest : '\n' ∉ rest) : regionAfter (front ++ '/' :: '/' :: rest) = .line := by
  rw [regionAfter_eq] at hfront ⊢
  have hslashes : next (next (after front) '/') '/' = line := by
    cases hstate : after front with
    | code | slash | line => rfl
    | block | star => exact absurd (by rw [hstate]; rfl) hfront
  rw [after_append, List.foldl_cons, List.foldl_cons, hslashes, foldl_line hrest]
  rfl

/-- A block comment goes on behind its star as long as there is no end mark. -/
theorem regionAfter_star {front rest : List Char} (hfront : regionAfter (front ++ ['*']) = .block)
    (hrest : ¬ ['*', '/'] <:+: '*' :: rest) : regionAfter (front ++ '*' :: rest) = .block := by
  rw [regionAfter_eq] at hfront ⊢
  rw [List.infix_cons_iff, not_or] at hrest
  have hstate : after (front ++ ['*']) = block ∨ after (front ++ ['*']) = star := by
    cases hafter : after (front ++ ['*']) with
    | block | star => simp
    | code | slash | line => rw [hafter] at hfront; cases hfront
  have hslash : rest.head? ≠ some '/' := by
    intro h
    obtain ⟨more, rfl⟩ := List.head?_eq_some_iff.1 h
    exact hrest.1 ⟨more, rfl⟩
  rw [List.append_cons, after_append]
  exact region_foldl_block (hstate.imp_right fun h => ⟨h, hslash⟩) hrest.2

/-- In code, looking back goes wrong exactly if the text is misread. -/
theorem inComment_iff_of_code (h : regionAfter text = .code) :
    inComment text = true ↔ Misread text := by
  rw [inComment_iff, slashes_lastLine_iff, inBlockComment_iff]
  constructor
  · rintro (⟨front, rest, rfl, hline⟩ | ⟨front, rest, rfl, hlast⟩)
    · refine .slashes front rest h rfl hline (by_contra fun hfront => ?_)
      cases h.symm.trans (regionAfter_slashes hfront hline)
    · refine .opening front rest h rfl (fun hblock => ?_) hlast
      have hopen : regionAfter (front ++ ['/'] ++ ['*']) = .block := by simpa using hblock
      have hinside := regionAfter_star hopen hlast
      rw [List.append_assoc, List.singleton_append] at hinside
      cases h.symm.trans hinside
  · rintro (⟨front, rest, -, rfl, hline, -⟩ | ⟨front, rest, -, rfl, -, hlast⟩ |
      ⟨_, _, hblock, _, _, _, _⟩)
    · exact Or.inl ⟨front, rest, rfl, hline⟩
    · exact Or.inr ⟨front, rest, rfl, hlast⟩
    · cases h.symm.trans hblock

/-- In a line comment, looking back sees its slashes. -/
theorem inComment_of_line (h : regionAfter text = .line) : inComment text = true := by
  rw [regionAfter_eq] at h
  have hline : after text = line := by
    cases hafter : after text with
    | line => rfl
    | code | slash | block | star => rw [hafter] at h; cases h
  rw [inComment_iff, slashes_lastLine_iff]
  exact Or.inl (exists_of_after_line hline)

/-- A start mark that is taken for an end mark, with no start mark behind it, leaves no block
comment open. -/
theorem not_inBlockComment_of_overlap {front rest : List Char}
    (hlast : ¬ ['/', '*'] <:+: '/' :: rest) :
    ¬ inBlockComment (front ++ '/' :: '*' :: '/' :: rest) = true := by
  rw [inBlockComment_iff]
  rintro ⟨front', rest', hsplit, hnone⟩
  rcases Nat.lt_trichotomy front'.length front.length with hlt | heq | hgt
  · have hsuffix := suffix_of_length_lt hsplit hlt
    have hend : ['*', '/'] <:+: '/' :: '*' :: '/' :: rest :=
      (pair_isInfix '*' '/' rest).trans (List.suffix_cons '/' _).isInfix
    exact hnone (hend.trans hsuffix.isInfix)
  · have hsame := (List.append_inj hsplit heq.symm).2
    simp only [List.cons.injEq, true_and] at hsame
    exact hnone (hsame ▸ pair_isInfix '*' '/' rest)
  · -- the start mark is behind the first slash, and not at the star
    have hsuffix := suffix_of_length_lt hsplit.symm hgt
    rcases List.suffix_cons_iff.1 hsuffix with heq | hlater
    · exact absurd (List.cons.inj heq).1 (by decide)
    · exact hlast ((pair_isInfix '/' '*' rest').trans hlater.isInfix)

/-- In a block comment, looking back goes wrong exactly if the text is misread: its start mark has
to be taken for an end mark. -/
theorem inComment_iff_of_block (h : regionAfter text = .block) :
    inComment text = false ↔ Misread text := by
  rw [← Bool.not_eq_true, inComment_iff, not_or]
  constructor
  · rintro ⟨hline, hblock⟩
    rw [contains_iff_isInfix] at hline
    rw [inBlockComment_iff] at hblock
    rw [regionAfter_eq] at h
    obtain ⟨front, rest, rfl, hcode, hrest⟩ := exists_of_region_block h
    have hslash : ['*', '/'] <:+: '*' :: rest := by
      by_contra hnone
      exact hblock ⟨front, rest, rfl, hnone⟩
    obtain ⟨more, rfl⟩ : ∃ more, rest = '/' :: more := by
      obtain ⟨more, hmore⟩ := (List.infix_cons_iff.1 hslash).resolve_right hrest
      exact ⟨more, by simpa using hmore.symm⟩
    refine .closing front more (by rw [regionAfter_eq, h]) rfl (by rw [regionAfter_eq, hcode]; rfl)
      ?_ hline
    -- a later start mark would be seen, since no end mark follows it either
    rintro ⟨before, later, hlater⟩
    refine hblock ⟨front ++ '/' :: '*' :: before, later, by simp [← hlater], fun hend => hrest ?_⟩
    have hsuffix : '*' :: later <:+ '/' :: more := ⟨before ++ ['/'], by simp [← hlater]⟩
    exact hend.trans hsuffix.isInfix
  · rintro (⟨_, _, hcode, _, _, _⟩ | ⟨_, _, hcode, _, _, _⟩ |
      ⟨front, rest, -, rfl, -, hlast, hline⟩)
    · cases h.symm.trans hcode
    · cases h.symm.trans hcode
    · rw [contains_iff_isInfix]
      exact ⟨hline, not_inBlockComment_of_overlap hlast⟩

theorem inComment_eq_iff (text : List Char) :
    inComment text = decide (regionAfter text ≠ .code) ↔ ¬ Misread text := by
  cases h : regionAfter text with
  | code => rw [← inComment_iff_of_code h]; simp
  | line =>
    refine iff_of_true (by rw [inComment_of_line h]; rfl) ?_
    rintro (⟨_, _, hcode, _, _, _⟩ | ⟨_, _, hcode, _, _, _⟩ | ⟨_, _, hblock, _, _, _, _⟩)
    · cases h.symm.trans hcode
    · cases h.symm.trans hcode
    · cases h.symm.trans hblock
  | block => rw [← inComment_iff_of_block h]; simp

/-- Looking back from a place gives the answer of a reader from left to right exactly if the text
before the place is not misread. -/
theorem inCommentAt?_eq_iff {text before : List Char} {offset : Nat}
    (h : before? offset text = some before) :
    inCommentAt? text offset = some (decide (regionAfter before ≠ .code)) ↔ ¬ Misread before := by
  rw [inCommentAt?, h, Option.map_some, Option.some.injEq]
  exact inComment_eq_iff before

/-- A slash and a star in a line comment do no harm if a block comment ends behind them, nor do two
slashes in a block comment of an earlier line. -/
theorem not_misread_earlier_marks :
    let text := "// é src/*.cs\n/* // */\nclass A".toList
    let before := "// é src/*.cs\n/* // */\n".toList
    before? 24 text = some before ∧ regionAfter before = .code ∧
      inCommentAt? text 24 = some false ∧ ¬ Misread before := by
  intro text before
  have hbefore : before? 24 text = some before := by decide
  exact ⟨hbefore, by decide, by decide, (inCommentAt?_eq_iff hbefore).1 (by decide)⟩

/-- A slash and a star in a line comment seem to hide the next line, two slashes in a block comment
seem to hide what follows it, and the start mark of a comment may seem to be its end. -/
theorem misread_marks :
    (inCommentAt? "// src/*.cs\nclass A".toList 12 = some true ∧
      (before? 12 "// src/*.cs\nclass A".toList).map regionAfter = some .code) ∧
    (inCommentAt? "/* // */ class A".toList 9 = some true ∧
      (before? 9 "/* // */ class A".toList).map regionAfter = some .code) ∧
    (inCommentAt? "/*/ class A".toList 4 = some false ∧
      (before? 4 "/*/ class A".toList).map regionAfter = some .block) := by
  decide

end Lineage.Source
