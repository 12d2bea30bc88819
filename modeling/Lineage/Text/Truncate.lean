import Lineage.Text.Measure

/-!
# Cutting text to a width

A text that is too wide is cut after as many characters as leave a column for the ellipsis.
Whether it is too wide is decided by the width of the text; where it is cut, by the widths of its
characters.
-/

namespace Lineage.Text

/-- How many columns characters take by themselves and texts take as a whole. -/
structure Ruler where
  char : Char → Nat
  text : List Char → Nat

/-- The mark that stands for cut text. -/
def ellipsis : Char := '…'

namespace Ruler

/-- The longest start of `text` whose characters fit into `budget` columns.  Characters without
width are kept after the last one that fits. -/
def fitting (r : Ruler) : Nat → List Char → List Char
  | _, [] => []
  | budget, c :: rest =>
    if r.char c ≤ budget then c :: r.fitting (budget - r.char c) rest else []

/-- `text` cut to `columns` columns, the last of them the ellipsis if something was cut. -/
def truncate (r : Ruler) (text : List Char) (columns : Nat) : List Char :=
  if r.text text ≤ columns then text else r.fitting (columns - 1) text ++ [ellipsis]

/-- A text that fits is not cut. -/
theorem truncate_of_text_le {r : Ruler} {text : List Char} {columns : Nat}
    (h : r.text text ≤ columns) : r.truncate text columns = text := by
  simp [truncate, h]

end Ruler

/-- The columns of a terminal. -/
def terminal : Ruler := ⟨charWidth, width⟩

/-- `text` cut to `columns` columns of a terminal. -/
def truncate (text : List Char) (columns : Nat) : List Char :=
  terminal.truncate text columns

end Lineage.Text
