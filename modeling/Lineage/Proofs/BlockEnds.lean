import Lineage.Proofs.Offsets
import Mathlib.Data.Set.Basic
import Mathlib.Order.Bounds.Defs

/-!
# Ends of blocks at byte offsets

The end of a block is found by a count that starts at its brace.  Here it is put in terms of the
count from the start of the text, which may be negative there: the block ends at the first byte
offset behind the brace at which as many braces are open as at the brace, or at the end of the text.
Offsets inside a character are no candidates, since nothing is counted there.

The main statement is `isLeast_blockEndAt?`, which also says that blocks do not cross.
-/

namespace Lineage.Source

variable {text : List Char} {o e : Nat}

/-! ### Offsets between characters -/

/-- The offsets up to which a text can be taken are those of its positions. -/
theorem exists_of_before? {before : List Char} (h : before? e text = some before) :
    ∃ i ≤ text.length, e = offsetOf text i ∧ before = text.take i := by
  induction text generalizing e before with
  | nil =>
    cases e with
    | zero => exact ⟨0, Nat.le_refl 0, rfl, (Option.some.inj h).symm⟩
    | succ e => cases h
  | cons c rest ih =>
    cases e with
    | zero => exact ⟨0, Nat.zero_le _, rfl, (Option.some.inj h).symm⟩
    | succ e =>
      rw [before?] at h
      · split_ifs at h with hinside
        obtain ⟨front, hfront, rfl⟩ := Option.map_eq_some_iff.1 h
        obtain ⟨i, hi, he, rfl⟩ := ih hfront
        refine ⟨i + 1, Nat.succ_le_succ hi, ?_, rfl⟩
        show e + 1 = c.utf8Size + offsetOf rest i
        omega
      · exact Nat.succ_ne_zero e

/-- Open braces are counted between characters. -/
theorem balanceAt?_eq_some_iff {b : Int} :
    balanceAt? text e = some b ↔
      ∃ i ≤ text.length, e = offsetOf text i ∧ balance (text.take i) = b := by
  constructor
  · intro h
    obtain ⟨before, hbefore, hb⟩ := Option.map_eq_some_iff.1 h
    obtain ⟨i, hi, he, rfl⟩ := exists_of_before? hbefore
    exact ⟨i, hi, he, hb⟩
  · rintro ⟨i, _, rfl, rfl⟩
    exact balanceAt?_offsetOf text i

/-- The byte of an opening brace is the only one of its character. -/
theorem exists_of_openByte (h : (encoded text)[o]? = some openByte) :
    ∃ i, o = offsetOf text i ∧ text[i]? = some '{' := by
  induction text generalizing o with
  | nil => simp [encoded] at h
  | cons c rest ih =>
    have hencoded : encoded (c :: rest) = String.utf8EncodeChar c ++ encoded rest := rfl
    have hsize := String.length_utf8EncodeChar c
    rw [hencoded] at h
    rcases Nat.lt_or_ge o c.utf8Size with hinside | hbehind
    · -- only a brace has the byte of a brace, and it has no other
      rw [List.getElem?_append_left (by omega)] at h
      have hbyte : openByte ∈ String.utf8EncodeChar c := List.mem_of_getElem? h
      by_cases hopen : c = '{'
      · subst hopen
        have hone : ('{' : Char).utf8Size = 1 := rfl
        obtain rfl : o = 0 := by omega
        exact ⟨0, rfl, rfl⟩
      · by_cases hclose : c = '}'
        · subst hclose
          exact absurd hbyte (by decide)
        · exact absurd rfl (ne_of_mem_utf8EncodeChar hopen hclose hbyte).1
    · rw [List.getElem?_append_right (by omega), hsize] at h
      obtain ⟨i, hi, hbrace⟩ := ih h
      refine ⟨i + 1, ?_, hbrace⟩
      show o = c.utf8Size + offsetOf rest i
      omega

/-! ### The first offset at the same level -/

/-- The byte offsets behind `o` at which `b` braces are open. -/
def levelOffsets (text : List Char) (o : Nat) (b : Int) : Set Nat :=
  {e | o < e ∧ balanceAt? text e = some b}

theorem mem_levelOffsets {i : Nat} {b : Int} :
    e ∈ levelOffsets text (offsetOf text i) b ↔
      ∃ j ≤ text.length, i < j ∧ e = offsetOf text j ∧ balance (text.take j) = b := by
  constructor
  · rintro ⟨hlt, hbalance⟩
    obtain ⟨j, hj, rfl, hb⟩ := balanceAt?_eq_some_iff.1 hbalance
    exact ⟨j, hj, (offsetOf_lt_iff hj).1 hlt, rfl, hb⟩
  · rintro ⟨j, hj, hij, rfl, hb⟩
    exact ⟨offsetOf_lt hij hj, balanceAt?_eq_some_iff.2 ⟨j, hj, rfl, hb⟩⟩

theorem blockEndAt?_offsetOf {i : Nat} (h : i ≤ text.length) :
    blockEndAt? text (offsetOf text i) = some (offsetOf text (blockEnd text i)) := by
  rw [← blockEndByte?_eq, blockEndByte?_offsetOf h]

/-- A block ends at the first offset with as many open braces as before it, or there is none and it
ends with the text. -/
theorem IsBlock.isLeast_levelOffsets {i stop : Nat} (h : IsBlock text i stop) :
    IsLeast (levelOffsets text (offsetOf text i) (balance (text.take i))) (offsetOf text stop) ∨
      levelOffsets text (offsetOf text i) (balance (text.take i)) = ∅ ∧
        offsetOf text stop = byteLength text := by
  rcases h.closed with hclosed | ⟨rfl, hopen⟩
  · left
    constructor
    · exact mem_levelOffsets.2 ⟨stop, h.stop_le, h.start_lt, rfl, hclosed⟩
    · intro e he
      obtain ⟨j, hj, hij, rfl, hb⟩ := mem_levelOffsets.1 he
      apply offsetOf_le
      by_contra hlt
      -- inside the block more braces are open
      have hinside := h.inside j hij (by omega)
      omega
  · right
    refine ⟨Set.eq_empty_of_forall_notMem fun e he => ?_, offsetOf_length text⟩
    obtain ⟨j, hj, hij, -, hb⟩ := mem_levelOffsets.1 he
    rcases Nat.lt_or_eq_of_le hj with hlt | rfl
    · have hinside := h.inside j hij hlt
      omega
    · omega

/-- **A block ends at the first byte offset behind its brace with as many open braces as at the
brace**, or at the end of the text if there is none, and of two blocks the first ends before the
second starts or not before the second ends. -/
theorem isLeast_blockEndAt? (h : (encoded text)[o]? = some openByte) :
    ∃ e b, blockEndAt? text o = some e ∧ balanceAt? text o = some b ∧
      (IsLeast (levelOffsets text o b) e ∨ levelOffsets text o b = ∅ ∧ e = byteLength text) ∧
      ∀ o', o < o' → (encoded text)[o']? = some openByte →
        ∃ e', blockEndAt? text o' = some e' ∧ (e ≤ o' ∨ e' ≤ e) := by
  obtain ⟨i, rfl, hi⟩ := exists_of_openByte h
  have hile : i ≤ text.length := Nat.le_of_lt (List.getElem?_eq_some_iff.1 hi).1
  have hblock := isBlock_blockEnd hi
  refine ⟨_, _, blockEndAt?_offsetOf hile, balanceAt?_offsetOf text i,
    hblock.isLeast_levelOffsets, fun o' ho' h' => ?_⟩
  obtain ⟨j, rfl, hj⟩ := exists_of_openByte h'
  have hjle : j ≤ text.length := Nat.le_of_lt (List.getElem?_eq_some_iff.1 hj).1
  have hij : i < j := (offsetOf_lt_iff hjle).1 ho'
  refine ⟨_, blockEndAt?_offsetOf hjle, ?_⟩
  rcases hblock.le_or_le (isBlock_blockEnd hj) hij with hbefore | hinside
  · exact Or.inl (offsetOf_le text hbefore)
  · exact Or.inr (offsetOf_le text hinside)

/-- A brace behind a stray closing one opens a block at level minus one; the block in it ends inside
it, behind a character of two bytes. -/
theorem isLeast_blockEndAt?_nested :
    let text := "\x7d\x7bé\x7bé\x7dé\x7d \x7d".toList
    (encoded text)[1]? = some openByte ∧ (encoded text)[4]? = some openByte ∧
      balanceAt? text 1 = some (-1) ∧ IsLeast (levelOffsets text 1 (-1)) 11 ∧
      blockEndAt? text 4 = some 8 ∧ (11 ≤ 4 ∨ 8 ≤ 11) := by
  intro text
  have h₁ : (encoded text)[1]? = some openByte := by decide +kernel
  have h₄ : (encoded text)[4]? = some openByte := by decide +kernel
  obtain ⟨houter, hlevel, hinner⟩ : blockEndAt? text 1 = some 11 ∧ balanceAt? text 1 = some (-1) ∧
      blockEndAt? text 4 = some 8 := by
    decide +kernel
  obtain ⟨e, b, he, hb, hleast, hcross⟩ := isLeast_blockEndAt? h₁
  obtain ⟨e', he', hle⟩ := hcross 4 (by decide) h₄
  obtain rfl := Option.some.inj (houter.symm.trans he)
  obtain rfl := Option.some.inj (hlevel.symm.trans hb)
  obtain rfl := Option.some.inj (hinner.symm.trans he')
  refine ⟨h₁, h₄, hb, hleast.resolve_right ?_, he', hle⟩
  rintro ⟨-, hlength⟩
  exact absurd hlength (by decide +kernel)

end Lineage.Source
