import Lineage.Browser.Preview
import Lineage.Proofs.Json
import Lineage.Proofs.Truncation

/-!
# Pages of a preview

All lines of a preview behind their numbers are one list of rows, and a window shows a part of it
(`render_eq`).  Where the window starts and ends is computed by bounds on both sides, and how far it
can be scrolled by another formula; that they agree is seen on this list.  The numbers all stand in
a gutter of the same width (`isRow_numbered`).

The main statement is `windows_render`: what a window shows, when a note stands below it and what
the note says, and that the pages of a preview are the preview.
-/

namespace Lineage

/-! ### Numbers in a gutter -/

namespace Number

/-- A larger number has at least as many digits. -/
theorem length_digits_le {m n : Nat} (h : m ≤ n) : (digits m).length ≤ (digits n).length := by
  have hpos : 0 < (digits n).length := List.length_pos_iff.2 (digits_ne_nil n)
  have hn : n < 10 ^ (digits n).length :=
    (Nat.length_toDigits_le_iff (by decide) hpos).1 (Nat.le_refl _)
  apply (Nat.length_toDigits_le_iff (by decide) hpos).2
  omega

theorem bounds_of_mem_digits {n : Nat} {c : Char} (h : c ∈ digits n) :
    0x30 ≤ c.toNat ∧ c.toNat ≤ 0x39 := by
  simpa [Char.isDigit, UInt32.le_iff_toNat_le] using isDigit_of_mem_digits h

end Number

namespace Text

/-- A text of printable ASCII characters and bars takes a column for each of them. -/
theorem width_eq_length {text : List Char}
    (h : ∀ c ∈ text, (0x20 ≤ c.toNat ∧ c.toNat < 0x7F) ∨ c = '│') : width text = text.length := by
  have hascii : ∀ n < 0x7F, 0x20 ≤ n →
      isPlain (Char.ofNat n) = true ∧ charWidth (Char.ofNat n) = 1 := by
    decide +kernel
  have hchar : ∀ c ∈ text, isPlain c = true ∧ charWidth c = 1 := by
    intro c hc
    rcases h c hc with ⟨hlow, hhigh⟩ | rfl
    · -- the tables decide, so the characters are tried one by one
      rw [← Char.ofNat_toNat c]
      exact hascii c.toNat hhigh hlow
    · decide +kernel
  have hsum : terminal.sum text = (text.map (fun _ => 1)).sum :=
    congrArg List.sum (List.map_congr_left (fun c hc => (hchar c hc).2))
  rw [width_of_isPlain (fun c hc => (hchar c hc).1), hsum]
  simp

end Text

namespace Preview

variable {p : Preview} {lines : List String} {highlight : Highlighter} {language : Language}
  {columns gutterColumns : Nat}

/-- The columns of the gutter before the lines of a preview of `total` lines. -/
def gutterWidth (total : Nat) : Nat :=
  (Number.digits (max total 1)).length + 3

/-- `row` shows `line` without colours and cut to `columns` columns, behind its number, which stands
at the right of a gutter `gutterColumns` columns wide. -/
def IsRow (gutterColumns columns number : Nat) (line : String) (row : StyledLine) : Prop :=
  ∃ label blanks, row = [⟨label, gutter⟩, ⟨String.ofList (Text.truncate line.toList columns), {}⟩] ∧
    label.toList = List.replicate blanks ' ' ++ Number.digits number ++ [' ', '│', ' '] ∧
    Text.width label.toList = gutterColumns

/-- Every number up to the number of lines fits into the gutter, and fills it. -/
theorem isRow_numbered (columns : Nat) (language : Language) {number total : Nat}
    (h : number ≤ total) (line : String) :
    IsRow (gutterWidth total) columns number line
      (numbered .plain language columns (Number.digits (max total 1)).length number line) := by
  have hfits : (Number.digits number).length ≤ (Number.digits (max total 1)).length :=
    Number.length_digits_le (by omega)
  have hlabel : (numberSpan (Number.digits (max total 1)).length number).text.toList =
      List.replicate ((Number.digits (max total 1)).length - (Number.digits number).length) ' ' ++
        Number.digits number ++ [' ', '│', ' '] := by
    simp [numberSpan, Number.padLeft]
  refine ⟨(numberSpan (Number.digits (max total 1)).length number).text, _, rfl, hlabel, ?_⟩
  rw [hlabel, Text.width_eq_length]
  · simp [gutterWidth]
    omega
  · intro c hc
    simp only [List.mem_append, List.mem_replicate, List.mem_cons, List.not_mem_nil, or_false] at hc
    rcases hc with (⟨-, rfl⟩ | hdigit) | rfl | rfl | rfl
    · exact Or.inl (by decide)
    · have hbounds := Number.bounds_of_mem_digits hdigit
      exact Or.inl (by omega)
    · exact Or.inl (by decide)
    · exact Or.inr rfl
    · exact Or.inl (by decide)

/-! ### All lines behind their numbers -/

theorem getElem?_numberedFrom (number : Nat) (lines : List String) (i : Nat) :
    (numberedFrom highlight language columns gutterColumns number lines)[i]? =
      lines[i]?.map (numbered highlight language columns gutterColumns (number + i)) := by
  induction lines generalizing number i with
  | nil => rfl
  | cons line rest ih =>
    cases i with
    | zero => rfl
    | succ i =>
      show (numberedFrom highlight language columns gutterColumns (number + 1) rest)[i]? = _
      rw [ih, List.getElem?_cons_succ, Nat.add_assoc, Nat.add_comm 1 i]

theorem length_numberedFrom (number : Nat) (lines : List String) :
    (numberedFrom highlight language columns gutterColumns number lines).length = lines.length := by
  induction lines generalizing number with
  | nil => rfl
  | cons line rest ih => exact congrArg (· + 1) (ih (number + 1))

/-- Lines that are left out in front still count. -/
theorem numberedFrom_drop (number k : Nat) (lines : List String) :
    numberedFrom highlight language columns gutterColumns (number + k) (lines.drop k) =
      (numberedFrom highlight language columns gutterColumns number lines).drop k := by
  ext1 i
  rw [getElem?_numberedFrom, List.getElem?_drop, List.getElem?_drop, getElem?_numberedFrom,
    Nat.add_assoc]

theorem numberedFrom_take (number k : Nat) (lines : List String) :
    numberedFrom highlight language columns gutterColumns number (lines.take k) =
      (numberedFrom highlight language columns gutterColumns number lines).take k := by
  ext1 i
  rw [getElem?_numberedFrom, List.getElem?_take, List.getElem?_take, getElem?_numberedFrom]
  split_ifs <;> rfl

/-- All lines of a preview behind their numbers. -/
def allRows (lines : List String) (columns : Nat) (language : Language) : List StyledLine :=
  numberedFrom .plain language columns (Number.digits (max lines.length 1)).length 1 lines

theorem length_allRows (lines : List String) (columns : Nat) (language : Language) :
    (allRows lines columns language).length = lines.length :=
  length_numberedFrom 1 lines

theorem exists_isRow_allRows (columns : Nat) (language : Language) {i : Nat} {line : String}
    (h : lines[i]? = some line) :
    ∃ row, (allRows lines columns language)[i]? = some row ∧
      IsRow (gutterWidth lines.length) columns (i + 1) line row := by
  have hlt : i < lines.length := (List.getElem?_eq_some_iff.1 h).1
  refine ⟨_, ?_, isRow_numbered columns language hlt line⟩
  rw [allRows, getElem?_numberedFrom, h, Option.map_some, Nat.add_comm 1 i]

/-! ### Windows -/

/-- The note on `below` lines below a window. -/
def note (below : Nat) : StyledLine :=
  [⟨"… " ++ toString below ++ " more lines", gutter⟩]

theorem maxScroll_eq (h : p.content = .ok lines) (height : Nat) :
    p.maxScroll height = lines.length - height := by
  rw [maxScroll, totalLines, Preview.lines, h]

/-- **A window shows a part of all rows**, and a note if there are lines below it. -/
theorem render_eq (h : p.content = .ok lines) (scroll height columns : Nat) (language : Language) :
    p.render scroll height columns .plain language =
      ((allRows lines columns language).drop scroll).take height ++
        if scroll < p.maxScroll height then [note (lines.length - (scroll + height))] else [] := by
  -- there are no rows behind the last one, so the bounds of the window make no difference
  have hlength := length_allRows lines columns language
  have hdrop : (allRows lines columns language).drop (min scroll lines.length) =
      (allRows lines columns language).drop scroll := by
    rw [List.drop_eq_drop_iff]
    omega
  have htake : ((allRows lines columns language).drop scroll).take
        (min (min scroll lines.length + height) lines.length - min scroll lines.length) =
      ((allRows lines columns language).drop scroll).take height := by
    rw [List.take_eq_take_iff, List.length_drop]
    omega
  rw [render, h]
  dsimp only
  rw [numberedFrom_take, Nat.add_comm (min scroll lines.length) 1, numberedFrom_drop]
  show ((allRows lines columns language).drop _).take _ ++ _ = _
  rw [hdrop, htake, maxScroll_eq h]
  congr 1
  split_ifs with hbelow hscroll hscroll
  · have hcount : lines.length - min (min scroll lines.length + height) lines.length =
        lines.length - (scroll + height) := by
      omega
    rw [note, hcount]
  · omega
  · omega
  · rfl

/-- The rows of a window without the note below them. -/
def shownRows (p : Preview) (scroll height columns : Nat) (language : Language) :
    List StyledLine :=
  let rendered := p.render scroll height columns .plain language
  if scroll < p.maxScroll height then rendered.dropLast else rendered

theorem shownRows_eq (h : p.content = .ok lines) (scroll height columns : Nat)
    (language : Language) :
    p.shownRows scroll height columns language =
      ((allRows lines columns language).drop scroll).take height := by
  rw [shownRows, render_eq h]
  split_ifs
  · exact List.dropLast_concat
  · exact List.append_nil _

/-- Pages of `height` rows, one after the other, are one window. -/
theorem flatMap_shownRows (h : p.content = .ok lines) (height columns : Nat)
    (language : Language) (count : Nat) :
    (List.range count).flatMap (fun i => p.shownRows (i * height) height columns language) =
      p.shownRows 0 (count * height) columns language := by
  simp only [shownRows_eq h, List.drop_zero]
  induction count with
  | zero => simp
  | succ count ih =>
    rw [List.range_succ, List.flatMap_append, ih, List.flatMap_singleton, Nat.succ_mul,
      List.take_add]

/-- What a window of `height` rows behind the first `scroll` of some lines shows: `shown` are the
rows of the lines in sight, and `below` lines follow. -/
structure Shows (lines : List String) (columns scroll height : Nat) (shown : List StyledLine)
    (below : Nat) : Prop where
  length_shown : shown.length =
    min (min scroll lines.length + height) lines.length - min scroll lines.length
  row : ∀ i < shown.length, ∃ line row,
    lines[min scroll lines.length + i]? = some line ∧ shown[i]? = some row ∧
      IsRow (gutterWidth lines.length) columns (min scroll lines.length + i + 1) line row
  total : min scroll lines.length + shown.length + below = lines.length

theorem shows_shownRows (h : p.content = .ok lines) (scroll height columns : Nat)
    (language : Language) :
    Shows lines columns scroll height (p.shownRows scroll height columns language)
      (lines.length - (scroll + height)) := by
  have hall := length_allRows lines columns language
  have hlength : (p.shownRows scroll height columns language).length =
      min height (lines.length - scroll) := by
    rw [shownRows_eq h, List.length_take, List.length_drop, hall]
  refine ⟨by omega, fun i hi => ?_, by omega⟩
  have hscroll : min scroll lines.length = scroll := by omega
  have hline : scroll + i < lines.length := by omega
  obtain ⟨row, hrow, his⟩ :=
    exists_isRow_allRows columns language (List.getElem?_eq_getElem hline)
  refine ⟨lines[scroll + i], row, ?_, ?_, ?_⟩
  · rw [hscroll, List.getElem?_eq_getElem hline]
  · rw [shownRows_eq h, List.getElem?_take_of_lt (by omega), List.getElem?_drop, hrow]
  · rwa [hscroll]

/-- **The windows of a preview show its lines**, each one behind its number, with a note on the rest
exactly while the window can be scrolled on; and the pages of a preview, as soon as they reach its
end, are the whole of it. -/
theorem windows_render (h : p.content = .ok lines) (columns : Nat) (language : Language) :
    (∀ scroll height, let below := lines.length - (scroll + height)
      Shows lines columns scroll height (p.shownRows scroll height columns language) below ∧
      (below = 0 ↔ ¬ scroll < p.maxScroll height) ∧
      p.render scroll height columns .plain language =
        p.shownRows scroll height columns language ++
          if scroll < p.maxScroll height then [note below] else []) ∧
    ∀ height count, lines.length ≤ count * height →
      (List.range count).flatMap (fun i => p.shownRows (i * height) height columns language) =
        p.render 0 lines.length columns .plain language := by
  refine ⟨fun scroll height => ⟨shows_shownRows h scroll height columns language, ?_, ?_⟩, ?_⟩
  · rw [maxScroll_eq h]
    omega
  · rw [render_eq h, shownRows_eq h]
  · intro height count hcount
    have hall := length_allRows lines columns language
    rw [flatMap_shownRows h, shownRows_eq h, render_eq h, if_neg (by rw [maxScroll_eq h]; omega),
      List.append_nil, List.take_of_length_le (by rw [List.drop_zero]; omega),
      List.take_of_length_le (by rw [List.drop_zero]; omega)]

/-- A file of four lines, with a tab and a return, on pages of three rows: a note stands below the
first page, and the second has one row. -/
theorem windows_render_twoPages :
    let d : Disk := ⟨.folder [("A.py", .file "class A:\n\tx = 12\r\n\nx".toUTF8)], []⟩
    let p := Preview.load d "A.py"
    let lines := ["class A:", "    x = 12", "", "x"]
    p.content = .ok lines ∧ Shows lines 8 0 3 (p.shownRows 0 3 8 .python) 1 ∧
      (p.render 0 3 8 .plain .python).map StyledLine.text =
        ["1 │ class A:", "2 │     x =…", "3 │ ", "… 1 more lines"] ∧
      (List.range 2).flatMap (fun i => p.shownRows (i * 3) 3 8 .python) =
        p.render 0 4 8 .plain .python := by
  intro d p lines
  have hcontent : p.content = .ok lines := by decide +kernel
  obtain ⟨hwindows, hpages⟩ := windows_render hcontent 8 .python
  exact ⟨hcontent, (hwindows 0 3).1, by decide +kernel, hpages 3 2 (by decide)⟩

end Preview

end Lineage
