import Lineage.Proofs.Lines
import Lineage.Proofs.Nesting
import Lineage.Source.Offset
import Mathlib.Data.List.Induction

/-!
# Positions and byte offsets

Classes are read at positions counted in characters, where nothing can go wrong.  On the UTF-8 form
of a text places are byte offsets: there a slice fails if its ends are out of order, outside the
text or inside a character, a block is searched byte by byte, and a line is looked up in a table of
line starts.  Each of these does at the byte offset of a position what is done at the position.
The search for the end of a block agrees with `blockEndAt?` at every offset, also inside a
character (`blockEndByte?_eq`).
-/

namespace Lineage.Source

variable {text : List Char} {i j : Nat}

/-! ### Offsets of positions -/

/-- The byte offset of a position. -/
def offsetOf (text : List Char) (i : Nat) : Nat :=
  byteLength (text.take i)

theorem byteLength_append (text more : List Char) :
    byteLength (text ++ more) = byteLength text + byteLength more := by
  induction text with
  | nil => simp [byteLength]
  | cons c rest ih =>
    show c.utf8Size + byteLength (rest ++ more) = c.utf8Size + byteLength rest + byteLength more
    omega

theorem offsetOf_length (text : List Char) : offsetOf text text.length = byteLength text := by
  rw [offsetOf, List.take_length]

theorem offsetOf_add (text : List Char) (i k : Nat) :
    offsetOf text (i + k) = offsetOf text i + offsetOf (text.drop i) k := by
  rw [offsetOf, List.take_add, byteLength_append]
  rfl

theorem offsetOf_le (text : List Char) (h : i ≤ j) : offsetOf text i ≤ offsetOf text j := by
  obtain ⟨k, rfl⟩ := Nat.exists_eq_add_of_le h
  rw [offsetOf_add]
  exact Nat.le_add_right _ _

theorem offsetOf_lt (h : i < j) (hj : j ≤ text.length) : offsetOf text i < offsetOf text j := by
  have hsucc : offsetOf text (i + 1) ≤ offsetOf text j := offsetOf_le text h
  have hi : i < text.length := by omega
  have hone : 0 < offsetOf (text.drop i) 1 := by
    rw [List.drop_eq_getElem_cons hi]
    exact Nat.add_pos_left (Char.utf8Size_pos _) _
  rw [offsetOf_add] at hsucc
  omega

theorem offsetOf_lt_iff (hj : j ≤ text.length) :
    offsetOf text i < offsetOf text j ↔ i < j := by
  refine ⟨fun h => ?_, fun h => offsetOf_lt h hj⟩
  by_contra hji
  have := offsetOf_le text (Nat.le_of_not_lt hji)
  omega

/-- The byte offset of a position is not inside a character. -/
theorem before?_offsetOf (text : List Char) (i : Nat) :
    before? (offsetOf text i) text = some (text.take i) := by
  induction text generalizing i with
  | nil =>
    rw [offsetOf, List.take_nil]
    rfl
  | cons c rest ih =>
    cases i with
    | zero => rfl
    | succ i =>
      have hpos := c.utf8Size_pos
      have hoffset : offsetOf (c :: rest) (i + 1) = c.utf8Size + offsetOf rest i := rfl
      rw [hoffset, before?, if_neg (by omega), Nat.add_sub_cancel_left, ih]
      · rfl
      · omega

theorem balanceAt?_offsetOf (text : List Char) (i : Nat) :
    balanceAt? text (offsetOf text i) = some (balance (text.take i)) := by
  rw [balanceAt?, before?_offsetOf, Option.map_some]

/-- The text between two byte offsets, if they are in order and neither is outside the text or
inside a character. -/
def sliceAt? (text : List Char) (start stop : Nat) : Option (List Char) := do
  let upTo ← before? stop text
  let before ← before? start text
  if start ≤ stop then some (upTo.drop before.length) else none

theorem sliceAt?_offsetOf (h : i ≤ j) (hj : j ≤ text.length) :
    sliceAt? text (offsetOf text i) (offsetOf text j) = some (slice text i j) := by
  rw [sliceAt?, before?_offsetOf, before?_offsetOf]
  show (if offsetOf text i ≤ offsetOf text j then _ else _) = _
  rw [if_pos (offsetOf_le text h), List.length_take, Nat.min_eq_left (Nat.le_trans h hj),
    List.drop_take]
  rfl

/-! ### Blocks byte by byte -/

/-- The UTF-8 form of a text. -/
def encoded (text : List Char) : List UInt8 :=
  text.flatMap String.utf8EncodeChar

theorem length_encoded (text : List Char) : (encoded text).length = byteLength text := by
  induction text with
  | nil => rfl
  | cons c rest ih =>
    rw [encoded, List.flatMap_cons, List.length_append, String.length_utf8EncodeChar]
    show c.utf8Size + (encoded rest).length = c.utf8Size + byteLength rest
    rw [ih]

theorem drop_encoded (text : List Char) (i : Nat) :
    (encoded text).drop (offsetOf text i) = encoded (text.drop i) := by
  have hsplit : encoded text = encoded (text.take i) ++ encoded (text.drop i) := by
    rw [encoded, encoded, encoded, ← List.flatMap_append, List.take_append_drop]
  rw [hsplit, offsetOf, ← length_encoded, List.drop_left]

/-- The byte of an opening brace. -/
def openByte : UInt8 := 0x7B

/-- The byte of a closing brace. -/
def closeByte : UInt8 := 0x7D

/-- Reads bytes on to the one that closes the block open at depth `depth` and returns the number of
bytes read with it, counting from `read`. -/
def closingByte? (depth read : Nat) : List UInt8 → Option Nat
  | [] => none
  | b :: rest =>
    if b == openByte then closingByte? (depth + 1) (read + 1) rest
    else if b == closeByte then
      if depth ≤ 1 then some (read + 1) else closingByte? (depth - 1) (read + 1) rest
    else closingByte? depth (read + 1) rest

/-- The byte offset after the block that opens at a byte offset, if that is in the text. -/
def blockEndByte? (text : List Char) (start : Nat) : Option Nat :=
  if start ≤ byteLength text then
    some ((closingByte? 0 start ((encoded text).drop start)).getD (byteLength text))
  else none

theorem closingByte?_append {bytes : List UInt8}
    (h : ∀ b ∈ bytes, b ≠ openByte ∧ b ≠ closeByte) (depth read : Nat) (rest : List UInt8) :
    closingByte? depth read (bytes ++ rest) = closingByte? depth (read + bytes.length) rest := by
  induction bytes generalizing read with
  | nil => rfl
  | cons b bytes ih =>
    have hb := h b List.mem_cons_self
    rw [List.cons_append, closingByte?, if_neg (by simpa using hb.1), if_neg (by simpa using hb.2),
      ih (fun x hx => h x (List.mem_cons_of_mem b hx)), List.length_cons]
    congr 1
    omega

/-- No byte of another character is the byte of a brace. -/
theorem ne_of_mem_utf8EncodeChar {c : Char} (hopen : c ≠ '{') (hclose : c ≠ '}') {b : UInt8}
    (hb : b ∈ String.utf8EncodeChar c) : b ≠ openByte ∧ b ≠ closeByte := by
  have hopen' : c.val.toNat ≠ 0x7B := fun h => hopen (Char.ext (UInt32.toNat_inj.1 h))
  have hclose' : c.val.toNat ≠ 0x7D := fun h => hclose (Char.ext (UInt32.toNat_inj.1 h))
  suffices b.toNat ≠ 0x7B ∧ b.toNat ≠ 0x7D from
    ⟨fun h => this.1 (congrArg UInt8.toNat h), fun h => this.2 (congrArg UInt8.toNat h)⟩
  unfold String.utf8EncodeChar at hb
  generalize c.val.toNat = v at *
  dsimp only at hb
  -- a character of one byte is that byte, and the bytes of a longer one are at least 128
  split_ifs at hb <;> simp only [List.mem_cons, List.not_mem_nil, or_false] at hb
  · rw [hb]
    simp
    omega
  · rcases hb with rfl | rfl <;> simp <;> omega
  · rcases hb with rfl | rfl | rfl <;> simp <;> omega
  · rcases hb with rfl | rfl | rfl | rfl <;> simp <;> omega

theorem closingByte?_encoded (depth read : Nat) (text : List Char) :
    closingByte? depth read (encoded text) =
      (closing? depth 0 text).map (fun n => read + offsetOf text n) := by
  induction text generalizing depth read with
  | nil => rfl
  | cons c rest ih =>
    have hencoded : encoded (c :: rest) = String.utf8EncodeChar c ++ encoded rest := rfl
    have hstep : ∀ depth, closingByte? depth (read + c.utf8Size) (encoded rest) =
        (closing? depth 1 rest).map (fun n => read + offsetOf (c :: rest) n) := by
      intro depth
      rw [ih, closing?_eq_map depth 1, Option.map_map]
      congr 1
      funext n
      show read + c.utf8Size + offsetOf rest n = read + offsetOf (c :: rest) (1 + n)
      rw [Nat.add_comm 1 n]
      show _ = read + (c.utf8Size + offsetOf rest n)
      omega
    rw [hencoded]
    unfold closing?
    split_ifs with hopen hclose hdepth
    · obtain rfl := beq_iff_eq.1 hopen
      exact hstep (depth + 1)
    · obtain rfl := beq_iff_eq.1 hclose
      show (if depth ≤ 1 then some (read + 1) else _) = _
      rw [if_pos hdepth]
      rfl
    · obtain rfl := beq_iff_eq.1 hclose
      show (if depth ≤ 1 then some (read + 1) else _) = _
      rw [if_neg hdepth]
      exact hstep (depth - 1)
    · have hbytes := fun b (hb : b ∈ String.utf8EncodeChar c) =>
        ne_of_mem_utf8EncodeChar (by simpa using hopen) (by simpa using hclose) hb
      rw [closingByte?_append hbytes, String.length_utf8EncodeChar]
      exact hstep depth

/-- **A block ends at the same place, searched byte by byte.** -/
theorem blockEndByte?_offsetOf (h : i ≤ text.length) :
    blockEndByte? text (offsetOf text i) = some (offsetOf text (blockEnd text i)) := by
  have hle : offsetOf text i ≤ byteLength text := by
    rw [← offsetOf_length]
    exact offsetOf_le text h
  rw [blockEndByte?, if_pos hle, drop_encoded, closingByte?_encoded, blockEnd, blockLength,
    offsetOf_add]
  cases closing? 0 0 (text.drop i) with
  | some n => rfl
  | none =>
    have hend := offsetOf_add text i (text.drop i).length
    rw [List.length_drop, Nat.add_sub_cancel' h, offsetOf_length] at hend
    rw [Option.map_none, Option.getD_none, Option.getD_none, List.length_drop, ← hend]

theorem fromOffset_zero (text : List Char) : fromOffset 0 text = text := by
  cases text <;> rfl

/-- From an offset on there may be the rest of a character, which has no brace, and then come the
characters that start at or after the offset. -/
theorem exists_drop_encoded {offset : Nat} (h : offset ≤ byteLength text) :
    ∃ rest, (∀ b ∈ rest, b ≠ openByte ∧ b ≠ closeByte) ∧
      (encoded text).drop offset = rest ++ encoded (fromOffset offset text) ∧
      offset + rest.length + byteLength (fromOffset offset text) = byteLength text := by
  induction text generalizing offset with
  | nil =>
    obtain rfl : offset = 0 := Nat.le_zero.1 h
    exact ⟨[], by simp, rfl, rfl⟩
  | cons c text ih =>
    have hlength : byteLength (c :: text) = c.utf8Size + byteLength text := rfl
    have hbytes := String.length_utf8EncodeChar c
    have hencoded : encoded (c :: text) = String.utf8EncodeChar c ++ encoded text := rfl
    cases offset with
    | zero => exact ⟨[], by simp, rfl, by simp [fromOffset_zero]⟩
    | succ offset =>
      have hfrom : fromOffset (offset + 1) (c :: text) =
          fromOffset (offset + 1 - c.utf8Size) text := rfl
      rw [hfrom, hencoded, List.drop_append, hbytes]
      by_cases hinside : offset + 1 < c.utf8Size
      · refine ⟨(String.utf8EncodeChar c).drop (offset + 1), fun b hb => ?_, ?_, ?_⟩
        · refine ne_of_mem_utf8EncodeChar ?_ ?_ (List.mem_of_mem_drop hb)
          · rintro rfl
            exact absurd hinside (Nat.not_lt.2 (Nat.le_add_left 1 offset))
          · rintro rfl
            exact absurd hinside (Nat.not_lt.2 (Nat.le_add_left 1 offset))
        · rw [Nat.sub_eq_zero_of_le (Nat.le_of_lt hinside), fromOffset_zero, List.drop_zero]
        · rw [Nat.sub_eq_zero_of_le (Nat.le_of_lt hinside), fromOffset_zero, List.length_drop,
            hbytes]
          omega
      · have hle : offset + 1 - c.utf8Size ≤ byteLength text := by omega
        obtain ⟨rest, hrest, hdrop, hoffset⟩ := ih hle
        refine ⟨rest, hrest, ?_, by omega⟩
        rw [List.drop_eq_nil_of_le (by omega), List.nil_append, hdrop]

/-- The search byte by byte agrees with the one character by character, also inside a
character. -/
theorem blockEndByte?_eq (text : List Char) (offset : Nat) :
    blockEndByte? text offset = blockEndAt? text offset := by
  unfold blockEndByte? blockEndAt?
  dsimp only
  by_cases h : offset ≤ byteLength text
  · obtain ⟨rest, hrest, hdrop, hoffset⟩ := exists_drop_encoded h
    have hstart : byteLength text - byteLength (fromOffset offset text) = offset + rest.length := by
      omega
    rw [if_pos h, if_neg (by omega), hdrop, closingByte?_append hrest, closingByte?_encoded,
      blockLength, hstart]
    cases closing? 0 0 (fromOffset offset text) with
    | some n => rfl
    | none =>
      rw [Option.map_none, Option.getD_none, Option.getD_none, List.take_length, hoffset]
  · rw [if_neg h, if_pos (by omega)]

/-! ### Lines by their starts -/

/-- The byte offsets after the newlines of a text that starts at offset `base`. -/
def afterNewlines (base : Nat) : List Char → List Nat
  | [] => []
  | c :: rest =>
    let next := base + c.utf8Size
    if c == '\n' then next :: afterNewlines next rest else afterNewlines next rest

/-- The byte offset of each line start. -/
def lineStarts (text : List Char) : List Nat :=
  0 :: afterNewlines 0 text

/-- The number of the line of a byte offset, by the starts of the lines. -/
def lineIndex (starts : List Nat) (offset : Nat) : Nat :=
  (starts.takeWhile (· ≤ offset)).length - 1

theorem lt_of_mem_afterNewlines {base start : Nat} (h : start ∈ afterNewlines base text) :
    base < start := by
  induction text generalizing base with
  | nil => cases h
  | cons c rest ih =>
    have hpos := c.utf8Size_pos
    have hrest : start ∈ afterNewlines (base + c.utf8Size) rest → base < start :=
      fun hmem => Nat.lt_trans (by omega) (ih hmem)
    unfold afterNewlines at h
    dsimp only at h
    split_ifs at h
    · rcases List.mem_cons.1 h with rfl | h
      · omega
      · exact hrest h
    · exact hrest h

theorem length_takeWhile_afterNewlines (base : Nat) (text : List Char) (i : Nat) :
    ((afterNewlines base text).takeWhile (· ≤ base + offsetOf text i)).length = lineAt text i := by
  induction text generalizing base i with
  | nil => simp [afterNewlines, lineAt]
  | cons c rest ih =>
    cases i with
    | zero =>
      have hnone : (afterNewlines base (c :: rest)).takeWhile (· ≤ base) = [] := by
        cases hstarts : afterNewlines base (c :: rest) with
        | nil => rfl
        | cons start more =>
          have hmem : start ∈ afterNewlines base (c :: rest) := by
            rw [hstarts]
            exact List.mem_cons_self
          have hlt : base < start := lt_of_mem_afterNewlines hmem
          exact List.takeWhile_cons_of_neg (by simpa using hlt)
      show ((afterNewlines base (c :: rest)).takeWhile (· ≤ base)).length = 0
      rw [hnone]
      rfl
    | succ i =>
      have hoffset : base + offsetOf (c :: rest) (i + 1) = base + c.utf8Size + offsetOf rest i := by
        show base + (c.utf8Size + offsetOf rest i) = _
        omega
      have hnext := ih (base + c.utf8Size) i
      rw [hoffset]
      unfold lineAt at hnext ⊢
      unfold afterNewlines
      rw [List.take_succ_cons, List.count_cons]
      dsimp only
      split_ifs
      · rw [List.takeWhile_cons_of_pos (by simp), List.length_cons, hnext]
      · rw [hnext, Nat.add_zero]

theorem lineIndex_offsetOf (text : List Char) (i : Nat) :
    lineIndex (lineStarts text) (offsetOf text i) = lineAt text i := by
  have h := length_takeWhile_afterNewlines 0 text i
  rw [Nat.zero_add] at h
  rw [lineIndex, lineStarts, List.takeWhile_cons_of_pos (by simp), List.length_cons, h]
  rfl

/-! ### Comments -/

/-- The byte offset of the last line start. -/
def lastLineStart (text : List Char) : Nat :=
  (lineStarts text).getLastD 0

/-- Whether a byte offset lies in a comment, by the part of its line before it. -/
def inCommentByte? (text : List Char) (offset : Nat) : Option Bool := do
  let before ← before? offset text
  let line ← sliceAt? before (lastLineStart before) (byteLength before)
  return Text.contains ['/', '/'] line || inBlockComment before

theorem afterNewlines_concat (base : Nat) (text : List Char) (c : Char) :
    afterNewlines base (text ++ [c]) =
      afterNewlines base text ++ if c == '\n' then [base + byteLength (text ++ [c])] else [] := by
  induction text generalizing base with
  | nil => rfl
  | cons d rest ih =>
    have hlength : base + byteLength (d :: (rest ++ [c])) =
        base + d.utf8Size + byteLength (rest ++ [c]) := by
      show base + (d.utf8Size + byteLength (rest ++ [c])) = _
      omega
    rw [List.cons_append, hlength]
    unfold afterNewlines
    dsimp only
    rw [ih]
    split_ifs <;> rfl

/-- The last line starts at its start in the table. -/
theorem lastLineStart_eq (text : List Char) :
    ∃ k ≤ text.length, lastLine text = text.drop k ∧ lastLineStart text = offsetOf text k := by
  induction text using List.reverseRecOn with
  | nil => exact ⟨0, Nat.le_refl 0, rfl, rfl⟩
  | append_singleton text c ih =>
    obtain ⟨k, hk, hline, hstart⟩ := ih
    unfold lastLine lastLineStart lineStarts at *
    rw [List.reverse_append, List.reverse_singleton, List.singleton_append, afterNewlines_concat]
    by_cases hc : c = '\n'
    · refine ⟨(text ++ [c]).length, Nat.le_refl _, ?_, ?_⟩
      · rw [List.takeWhile_cons_of_neg (by simpa using hc), List.drop_length]
        rfl
      · rw [if_pos (by simpa using hc), offsetOf_length, Nat.zero_add, ← List.cons_append,
          List.getLastD_concat]
    · refine ⟨k, by simp; omega, ?_, ?_⟩
      · rw [List.takeWhile_cons_of_pos (by simpa using hc), List.reverse_cons, hline,
          List.drop_append_of_le_length hk]
      · rw [if_neg (by simpa using hc), List.append_nil, hstart, offsetOf, offsetOf,
          List.take_append_of_le_length hk]

theorem inCommentByte?_offsetOf (text : List Char) (i : Nat) :
    inCommentByte? text (offsetOf text i) = some (inComment (text.take i)) := by
  obtain ⟨k, hk, hline, hstart⟩ := lastLineStart_eq (text.take i)
  have hslice : slice (text.take i) k (text.take i).length = lastLine (text.take i) := by
    rw [hline, slice, ← List.length_drop, List.take_length]
  rw [inCommentByte?, before?_offsetOf, Option.bind_eq_bind, Option.bind_some, hstart,
    ← offsetOf_length, sliceAt?_offsetOf hk (Nat.le_refl _), hslice]
  rfl

end Lineage.Source
