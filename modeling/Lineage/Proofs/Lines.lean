import Lineage.Proofs.Routes
import Lineage.Source.Layout

/-!
# Lines of a text

Line numbers come from two sides: from the newlines before a place, and from the list of lines,
which has no entry for an empty last line.  A character other than a newline stands on a line of the
list (`lineAt_lt_length_lines`), so the lines of a class header are in the list, and with them the
lines of its body (`extent_of_mem`).
-/

namespace Lineage

namespace Text

theorem pieces_cons_of_pos {cut : Char → Bool} {c : Char} (hc : cut c = true)
    (rest : List Char) : pieces cut (c :: rest) = [] :: pieces cut rest := by
  simp [pieces, hc]

theorem pieces_cons_of_neg {cut : Char → Bool} {c : Char} (hc : ¬ cut c = true)
    (rest : List Char) :
    ∃ part more, pieces cut rest = part :: more ∧ pieces cut (c :: rest) = (c :: part) :: more := by
  obtain ⟨part, more, hparts⟩ := List.exists_cons_of_ne_nil (pieces_ne_nil cut rest)
  refine ⟨part, more, hparts, ?_⟩
  unfold pieces at hparts ⊢
  rw [List.foldr_cons, hparts, if_neg hc]

/-- A character that cuts parts the pieces before it from those after it. -/
theorem pieces_append_of_pos {cut : Char → Bool} {c : Char} (hc : cut c = true)
    (text rest : List Char) :
    pieces cut (text ++ c :: rest) = pieces cut text ++ pieces cut rest := by
  induction text with
  | nil => exact pieces_cons_of_pos hc rest
  | cons a text ih =>
    by_cases ha : cut a = true
    · rw [List.cons_append, pieces_cons_of_pos ha, pieces_cons_of_pos ha, ih, List.cons_append]
    · obtain ⟨part, more, hparts, hcons⟩ := pieces_cons_of_neg ha text
      obtain ⟨part', more', hparts', hcons'⟩ := pieces_cons_of_neg ha (text ++ c :: rest)
      rw [ih, hparts, List.cons_append, List.cons.injEq] at hparts'
      rw [List.cons_append, hcons', hcons, ← hparts'.1, ← hparts'.2, List.cons_append]

/-- The first piece is the text up to the first character that cuts. -/
theorem head?_pieces (cut : Char → Bool) (text : List Char) :
    (pieces cut text).head? = some (text.takeWhile (fun c => !cut c)) := by
  induction text with
  | nil => rfl
  | cons c rest ih =>
    by_cases hc : cut c = true
    · rw [pieces_cons_of_pos hc, List.takeWhile_cons_of_neg (by simp [hc])]
      rfl
    · obtain ⟨part, more, hparts, hcons⟩ := pieces_cons_of_neg hc rest
      rw [hparts, List.head?_cons, Option.some.injEq] at ih
      rw [hcons, List.head?_cons, List.takeWhile_cons_of_pos (by simp [hc]), ih]

theorem length_pieces (cut : Char → Bool) (text : List Char) :
    (pieces cut text).length = text.countP cut + 1 := by
  induction text with
  | nil => rfl
  | cons c rest ih =>
    by_cases hc : cut c = true
    · rw [pieces_cons_of_pos hc, List.length_cons, ih, List.countP_cons_of_pos hc]
    · obtain ⟨part, more, hparts, hcons⟩ := pieces_cons_of_neg hc rest
      rw [hcons, List.countP_cons_of_neg hc, ← ih, hparts, List.length_cons, List.length_cons]

/-- A text without a character that cuts is one piece. -/
theorem pieces_eq_singleton {cut : Char → Bool} {text : List Char}
    (h : ∀ c ∈ text, ¬ cut c = true) : pieces cut text = [text] := by
  induction text with
  | nil => rfl
  | cons c rest ih =>
    obtain ⟨part, more, hparts, hcons⟩ := pieces_cons_of_neg (h c List.mem_cons_self) rest
    rw [ih (fun a ha => h a (List.mem_cons_of_mem c ha)), List.cons.injEq] at hparts
    rw [hcons, ← hparts.1, ← hparts.2]

/-- A character that does not cut stands in one of the pieces. -/
theorem exists_mem_pieces {cut : Char → Bool} {text : List Char} {c : Char} (h : c ∈ text)
    (hc : ¬ cut c = true) : ∃ part ∈ pieces cut text, c ∈ part := by
  induction text with
  | nil => cases h
  | cons a rest ih =>
    by_cases ha : cut a = true
    · have hne : c ≠ a := fun hca => hc (hca ▸ ha)
      obtain ⟨part, hpart, hmem⟩ := ih (List.mem_of_ne_of_mem hne h)
      rw [pieces_cons_of_pos ha]
      exact ⟨part, List.mem_cons_of_mem [] hpart, hmem⟩
    · obtain ⟨first, more, hparts, hcons⟩ := pieces_cons_of_neg ha rest
      rw [hcons]
      rcases List.mem_cons.1 h with rfl | h
      · exact ⟨c :: first, List.mem_cons_self, List.mem_cons_self⟩
      · obtain ⟨part, hpart, hmem⟩ := ih h
        rw [hparts] at hpart
        rcases List.mem_cons.1 hpart with rfl | hpart
        · exact ⟨a :: part, List.mem_cons_self, List.mem_cons_of_mem a hmem⟩
        · exact ⟨part, List.mem_cons_of_mem _ hpart, hmem⟩

/-- A character that does not cut stands in the piece after the cuts before it. -/
theorem exists_piece {cut : Char → Bool} {text : List Char} {i : Nat} {c : Char}
    (h : text[i]? = some c) (hc : ¬ cut c = true) :
    ∃ part, (pieces cut text)[(text.take i).countP cut]? = some part ∧ part ≠ [] := by
  induction text generalizing i with
  | nil => simp at h
  | cons a rest ih =>
    cases i with
    | zero =>
      obtain rfl : a = c := Option.some.inj h
      obtain ⟨first, more, _, hcons⟩ := pieces_cons_of_neg hc rest
      rw [hcons]
      exact ⟨a :: first, rfl, List.cons_ne_nil a first⟩
    | succ i =>
      obtain ⟨part, hpart, hne⟩ := ih h
      rw [List.take_succ_cons]
      by_cases ha : cut a = true
      · rw [pieces_cons_of_pos ha, List.countP_cons_of_pos ha]
        exact ⟨part, hpart, hne⟩
      · obtain ⟨first, more, hparts, hcons⟩ := pieces_cons_of_neg ha rest
        rw [hcons, List.countP_cons_of_neg ha]
        rw [hparts] at hpart
        cases hcount : (rest.take i).countP cut with
        | zero => exact ⟨a :: first, rfl, List.cons_ne_nil a first⟩
        | succ n =>
          rw [hcount] at hpart
          exact ⟨part, hpart, hne⟩

theorem length_lines_le (text : List Char) : (lines text).length ≤ text.count '\n' + 1 := by
  have hparts : (pieces (· == '\n') text).length = text.count '\n' + 1 := length_pieces _ text
  have hlast : ((pieces (· == '\n') text).getLast?.filter (fun part => !part.isEmpty)).toList.length
      ≤ 1 := Option.length_toList_le
  rw [lines, List.length_append, List.length_map, List.length_dropLast]
  omega

/-- A piece that is not empty is listed as a line. -/
theorem getElem?_lines {text part : List Char} {k : Nat}
    (h : (pieces (· == '\n') text)[k]? = some part) (hpart : part ≠ []) :
    ∃ line, (lines text)[k]? = some line ∧ (line = part ∨ line = dropReturn part) := by
  obtain ⟨front, last, hparts⟩ :=
    (List.eq_nil_or_concat' (pieces (· == '\n') text)).resolve_left (pieces_ne_nil _ text)
  have hlines : lines text =
      front.map dropReturn ++ (some last |>.filter (fun part => !part.isEmpty)).toList := by
    simp only [lines, hparts, List.dropLast_concat, List.getLast?_concat]
  rw [hparts] at h
  rw [hlines]
  rcases Nat.lt_or_ge k front.length with hlt | hge
  · rw [List.getElem?_append_left hlt] at h
    rw [List.getElem?_append_left (by simpa using hlt), List.getElem?_map, h]
    exact ⟨_, rfl, Or.inr rfl⟩
  · rw [List.getElem?_append_right hge, List.getElem?_singleton] at h
    split_ifs at h with hk
    obtain rfl := Option.some.inj h
    rw [List.getElem?_append_right (by simpa using hge), List.length_map, hk]
    exact ⟨last, by simp [Option.filter, hpart], Or.inl rfl⟩

end Text

namespace Source

variable {text : List Char} {i : Nat}

theorem lineAt_mono (text : List Char) {i j : Nat} (h : i ≤ j) : lineAt text i ≤ lineAt text j :=
  ((List.take_prefix_take_left h).sublist).count_le '\n'

/-- A character other than a newline stands on one of the lines. -/
theorem lineAt_lt_length_lines {c : Char} (h : text[i]? = some c) (hc : c ≠ '\n') :
    lineAt text i < (Text.lines text).length := by
  have hcut : ¬ (c == '\n') = true := by simpa using hc
  obtain ⟨part, hpart, hne⟩ :
      ∃ part, (Text.pieces (· == '\n') text)[lineAt text i]? = some part ∧ part ≠ [] :=
    Text.exists_piece h hcut
  obtain ⟨line, hline, _⟩ := Text.getElem?_lines hpart hne
  exact (List.getElem?_eq_some_iff.1 hline).1

/-! ### Bodies below a header -/

theorem le_lastOfBody (indent : Nat) {line last : Nat} (h : last ≤ line)
    (rest : List (List Char)) : last ≤ lastOfBody indent line last rest := by
  induction rest generalizing line last with
  | nil => exact Nat.le_refl last
  | cons content rest ih =>
    unfold lastOfBody
    split_ifs
    · exact Nat.le_trans h (ih (Nat.le_succ line))
    · exact Nat.le_refl last
    · exact Nat.le_trans h (ih (Nat.le_succ line))

theorem lastOfBody_lt (indent : Nat) {line last : Nat} (h : last < line)
    (rest : List (List Char)) : lastOfBody indent line last rest < line + rest.length := by
  induction rest generalizing line last with
  | nil => exact h
  | cons content rest ih =>
    have hnext := ih (Nat.lt_add_one line)
    rw [List.length_cons]
    unfold lastOfBody
    split_ifs <;> omega

/-- A body reaches from its header to one of the lines. -/
theorem extentEnd_bounds {lines : List (List Char)} {header : Nat} (h : header < lines.length)
    (indent : Nat) :
    header ≤ extentEnd lines header indent ∧ extentEnd lines header indent < lines.length := by
  have hlt := lastOfBody_lt indent (Nat.lt_add_one header) (lines.drop (header + 1))
  rw [List.length_drop] at hlt
  unfold extentEnd
  exact ⟨le_lastOfBody indent (Nat.le_succ header) _, by omega⟩

/-- A header ends with a colon. -/
theorem colon_of_mem {found : Match} (h : found ∈ layoutHeader.matchesIn text) :
    found.start < found.stop ∧ text[found.stop - 1]? = some ':' := by
  have hlast : layoutHeader.lastOf = some (· == ':') := rfl
  obtain ⟨c, hlt, hc, hset⟩ := Match.getElem?_stop_of_mem hlast h
  rw [beq_iff_eq.1 hset] at hc
  exact ⟨hlt, hc⟩

/-- The lines of a class are in the list of lines: from the first line of its header to the last
one of its body. -/
theorem extent_of_mem {found : Match} (h : found ∈ layoutHeader.matchesIn text) (indent : Nat) :
    let last := extentEnd (Text.lines text) (lineAt text (found.stop - 1)) indent
    lineAt text found.start ≤ last ∧ last < (Text.lines text).length := by
  obtain ⟨hlt, hcolon⟩ := colon_of_mem h
  have hheader := lineAt_lt_length_lines hcolon (by decide)
  have hfirst : lineAt text found.start ≤ lineAt text (found.stop - 1) :=
    lineAt_mono text (by omega)
  have hbounds := extentEnd_bounds hheader indent
  exact ⟨Nat.le_trans hfirst hbounds.1, hbounds.2⟩

end Source

end Lineage
