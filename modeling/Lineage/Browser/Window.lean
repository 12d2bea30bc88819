/-!
# The window on a list

A window shows a few neighbouring rows of a longer list and moves as little as it can to keep one
row of it in sight.
-/

namespace Lineage

/-- The rows of a list that are in sight. -/
structure Window where
  /-- The first row in sight. -/
  offset : Nat := 0
  /-- How many rows fit. -/
  rows : Nat := 0
  deriving DecidableEq, Repr, Inhabited

namespace Window

/-- Moves the window so that row `selected` of `total` is in sight and no row below the end is
shown while there are rows above.  A window without rows stays at the selected one. -/
def follow (w : Window) (selected total : Nat) : Window :=
  if w.rows == 0 then { w with offset := selected }
  else
    let offset :=
      if selected < w.offset then selected
      else if w.offset + w.rows ≤ selected then selected + 1 - w.rows
      else w.offset
    { w with offset := min offset (total - w.rows) }

/-- Following a row does not change how many rows fit. -/
@[simp]
theorem rows_follow (w : Window) (selected total : Nat) :
    (w.follow selected total).rows = w.rows := by
  unfold follow
  split <;> rfl

/-- Changes the number of rows and follows the selected row. -/
def resize (w : Window) (rows selected total : Nat) : Window :=
  { w with rows }.follow selected total

@[simp]
theorem rows_resize (w : Window) (rows selected total : Nat) :
    (w.resize rows selected total).rows = rows := by
  simp [resize]

/-- The first row in sight of a list of `total` rows. -/
def start (w : Window) (total : Nat) : Nat :=
  min w.offset total

/-- The row after the last one in sight. -/
def stop (w : Window) (total : Nat) : Nat :=
  min (w.start total + w.rows) total

theorem start_le_stop (w : Window) (total : Nat) : w.start total ≤ w.stop total := by
  unfold stop start
  omega

theorem stop_le_total (w : Window) (total : Nat) : w.stop total ≤ total :=
  Nat.min_le_right _ _

end Window

end Lineage
