import Lineage.Browser.Window
import Mathlib.Data.Nat.Dist
import Mathlib.Order.Interval.Set.ProjIcc
import Mathlib.Tactic.SplitIfs

/-!
# Windows that follow a row

The offsets at which a window has a row in sight and as many rows as possible filled form an
interval, which is never empty (`offsets_eq_Icc`, `nonempty_offsets`).  `follow` corrects an offset
from above or from below and then keeps it away from the end of the list.  Together these steps are
the projection onto that interval (`offset_follow`), so the second one never undoes the first.

The main statement is `settles_follow`: a window moves as little as it has to, from wherever it
stands, and a second time not at all.
-/

namespace Lineage.Window

variable {rows selected total : Nat}

/-! ### The interval of offsets -/

/-- The offsets at which a window of `rows` rows has row `selected` of a list of `total` rows in
sight and reaches below the end of the list only if it starts with the first row. -/
def offsets (rows selected total : Nat) : Set Nat :=
  {o | o ≤ selected ∧ selected < o + rows ∧ o ≤ total - rows}

theorem offsets_eq_Icc (rows selected total : Nat) :
    offsets rows selected total =
      Set.Icc (selected + 1 - rows) (min selected (total - rows)) := by
  ext o
  show (o ≤ selected ∧ selected < o + rows ∧ o ≤ total - rows) ↔
    selected + 1 - rows ≤ o ∧ o ≤ min selected (total - rows)
  omega

theorem lowest_le_highest (hrows : 0 < rows) (hselected : selected < total) :
    selected + 1 - rows ≤ min selected (total - rows) := by
  omega

theorem nonempty_offsets (hrows : 0 < rows) (hselected : selected < total) :
    (offsets rows selected total).Nonempty := by
  rw [offsets_eq_Icc]
  exact Set.nonempty_Icc.2 (lowest_le_highest hrows hselected)

/-! ### Following is a projection -/

/-- **Following a row projects the offset onto the interval of offsets that show it.** -/
theorem offset_follow (w : Window) (hrows : 0 < w.rows) (hselected : selected < total) :
    (w.follow selected total).offset =
      Set.projIcc _ _ (lowest_le_highest hrows hselected) w.offset := by
  have hne : ¬ (w.rows == 0) = true := by
    rw [beq_iff_eq]
    omega
  rw [Set.coe_projIcc, follow, if_neg hne]
  dsimp only
  -- the row is above the window, below it or in it
  split_ifs <;> omega

/-- Every point of an interval other than the projection is further away. -/
theorem dist_projIcc_lt {a b : Nat} (h : a ≤ b) (x : Nat) {o : Nat} (ho : o ∈ Set.Icc a b)
    (hne : o ≠ Set.projIcc a b h x) : Nat.dist x (Set.projIcc a b h x) < Nat.dist x o := by
  obtain ⟨hlow, hhigh⟩ := ho
  rw [Set.coe_projIcc] at hne ⊢
  unfold Nat.dist
  omega

/-- Following a row changes nothing but the offset. -/
theorem follow_eq (w : Window) (selected total : Nat) :
    w.follow selected total = { w with offset := (w.follow selected total).offset } := by
  unfold follow
  split <;> rfl

/-- A window that has its row in sight stays. -/
theorem follow_of_mem {w : Window} (hoffset : w.offset ∈ offsets w.rows selected total)
    (hrows : 0 < w.rows) (hselected : selected < total) : w.follow selected total = w := by
  rw [offsets_eq_Icc] at hoffset
  rw [follow_eq, offset_follow w hrows hselected, Set.projIcc_of_mem _ hoffset]

theorem resize_of_rows_eq {w : Window} (hrows : w.rows = rows) (selected total : Nat) :
    w.resize rows selected total = w.follow selected total := by
  subst hrows
  rfl

/-! ### Settled windows -/

/-- The window `w` has got `rows` rows and has been moved to `settled`, as little as row `selected`
of a list of `total` rows asks for. -/
structure Settles (w : Window) (rows selected total : Nat) (settled : Window) : Prop where
  rows_eq : settled.rows = rows
  mem_offsets : settled.offset ∈ offsets rows selected total
  /-- Every other offset is further away. -/
  nearest : ∀ o ∈ offsets rows selected total, o ≠ settled.offset →
    Nat.dist w.offset settled.offset < Nat.dist w.offset o
  unmoved : w.offset ∈ offsets rows selected total → settled.offset = w.offset
  follow_eq : settled.follow selected total = settled
  resize_eq : settled.resize rows selected total = settled

theorem settles_resize (w : Window) (hrows : 0 < rows) (hselected : selected < total) :
    w.Settles rows selected total (w.resize rows selected total) := by
  have hrows' : (w.resize rows selected total).rows = rows := rows_resize w rows selected total
  have hoffset : (w.resize rows selected total).offset =
      Set.projIcc _ _ (lowest_le_highest hrows hselected) w.offset :=
    offset_follow { w with rows } hrows hselected
  have hmem : (w.resize rows selected total).offset ∈ offsets rows selected total := by
    rw [offsets_eq_Icc, hoffset]
    exact Subtype.coe_prop _
  have hfollow : (w.resize rows selected total).follow selected total =
      w.resize rows selected total := by
    apply follow_of_mem
    · rwa [hrows']
    · rwa [hrows']
    · exact hselected
  refine ⟨hrows', hmem, fun o ho hne => ?_, fun hw => ?_, hfollow, ?_⟩
  · rw [offsets_eq_Icc] at ho
    rw [hoffset] at hne ⊢
    exact dist_projIcc_lt _ w.offset ho hne
  · rw [offsets_eq_Icc] at hw
    rw [hoffset, Set.projIcc_of_mem _ hw]
  · rw [resize_of_rows_eq hrows', hfollow]

/-- **A window moves as little as it has to**: following a row, and getting another number of rows
at the same time, leads to the nearest of the offsets that show the row, wherever the window stood
before, and doing it again changes nothing. -/
theorem settles_follow (w : Window) (hselected : selected < total) :
    (∀ rows, 0 < rows → (offsets rows selected total).Nonempty) ∧
      (0 < w.rows → w.Settles w.rows selected total (w.follow selected total)) ∧
      ∀ rows, 0 < rows → w.Settles rows selected total (w.resize rows selected total) :=
  ⟨fun _ hrows => nonempty_offsets hrows hselected,
    fun hrows => w.settles_resize hrows hselected,
    fun _ hrows => w.settles_resize hrows hselected⟩

/-- A window far below the end of a list comes back to its last rows, and one that has become
taller than the list comes back to the first row. -/
theorem settles_follow_pastEnd :
    let w : Window := ⟨50, 3⟩
    (w.follow 7 9 = ⟨6, 3⟩ ∧ w.Settles 3 7 9 ⟨6, 3⟩) ∧
      w.resize 12 7 9 = ⟨0, 12⟩ ∧ w.Settles 12 7 9 ⟨0, 12⟩ := by
  intro w
  obtain ⟨-, hfollow, hresize⟩ := w.settles_follow (show 7 < 9 by decide)
  exact ⟨⟨by decide, hfollow (by decide)⟩, by decide, hresize 12 (by decide)⟩

end Lineage.Window
