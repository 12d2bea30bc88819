import Lineage.Browser.Session
import Mathlib.Tactic.SplitIfs

/-!
# Runs of a session

A session is driven by calls: keys, new sizes, and requests for the preview.  `Effect` lists what a
call can do to a session, and whatever every effect keeps holds after every run
(`run_induction`).  The files may change between the calls, so each call of a run comes with the
disk that it finds.

The main statement is `framed_run`: after every run the selected line is one of the lines and in
sight, and no row of the window is left empty while there are lines out of sight.
-/

namespace Lineage

/-! ### Windows -/

namespace Window

variable {selected total : Nat}

/-- Row `selected` of `total` is in sight of a window, and the window shows as many rows as it
can.  A window without rows stands at the selected one. -/
structure InSight (w : Window) (selected total : Nat) : Prop where
  offset_eq : w.rows = 0 → w.offset = selected
  offset_le : 0 < w.rows → 0 < total → w.offset ≤ selected
  lt_offset_add_rows : 0 < w.rows → 0 < total → selected < w.offset + w.rows
  start_le : 0 < w.rows → 0 < total → w.start total ≤ selected
  lt_stop : 0 < w.rows → 0 < total → selected < w.stop total
  filled : 0 < w.rows → 0 < total → w.stop total - w.start total = min w.rows total

/-- The offset of a window with rows that follows a row. -/
theorem offset_follow_bounds (w : Window) (hrows : 0 < w.rows) (hselected : selected < total) :
    (w.follow selected total).offset ≤ selected ∧
      selected < (w.follow selected total).offset + w.rows ∧
      (w.follow selected total).offset ≤ total - w.rows := by
  have hne : ¬ (w.rows == 0) = true := by
    rw [beq_iff_eq]
    omega
  unfold follow
  rw [if_neg hne]
  dsimp only
  split_ifs <;> omega

/-- A window that follows a row of a list has it in sight, wherever the window stood. -/
theorem inSight_follow (w : Window) (hselected : 0 < total → selected < total) :
    (w.follow selected total).InSight selected total := by
  have hbounds := fun hrows htotal => w.offset_follow_bounds hrows (hselected htotal)
  constructor <;> simp only [rows_follow, start, stop]
  case offset_eq =>
    intro hrows
    simp [follow, hrows]
  all_goals
    intro hrows htotal
    have := hselected htotal
    have := hbounds hrows htotal
    omega

end Window

namespace Session

open Forest

variable {s t : Session} {ds : List Declaration} {d : Disk}

/-! ### Calls -/

/-- A call to a session. -/
inductive Call where
  | press (key : Key)
  /-- A key, perhaps together with the control key. -/
  | chord (control : Bool) (key : Key)
  | setTreeRows (rows : Nat)
  | setPreviewRows (rows : Nat)
  /-- Asks for the preview of the selected file. -/
  | preview
  /-- Asks for some rows of that preview. -/
  | previewLines (height : Nat)
  | setStatus (message : String)
  deriving DecidableEq, Repr

/-- The session after a call, which finds the given disk.  Asking for the preview, or for rows of
it, remembers it. -/
def perform (s : Session) : Disk × Call → Session
  | (d, .press key) => (s.press d key).1
  | (d, .chord control key) => (s.pressChord d control key).1
  | (_, .setTreeRows rows) => s.setTreeRows rows
  | (d, .setPreviewRows rows) => s.setPreviewRows d rows
  | (d, .preview) => s.remember d
  | (d, .previewLines _) => s.remember d
  | (_, .setStatus message) => s.setStatus message

/-- The session after a list of calls. -/
def run (s : Session) (calls : List (Disk × Call)) : Session :=
  calls.foldl perform s

/-! ### Effects -/

/-- Selecting a line follows it, and unscrolls the preview if it is another line. -/
theorem select_eq (s : Session) (index : Nat) :
    s.select index = { s with
      selected := index
      previewScroll := if index = s.selected then s.previewScroll else 0
      window := s.window.follow index s.lines.size } := by
  unfold select
  by_cases h : index = s.selected
  · simp [h]
  · simp [h]

/-- Remembering a preview changes nothing else. -/
theorem remember_eq (d : Disk) (s : Session) :
    s.remember d = { s with cached := (s.remember d).cached } := by
  unfold remember
  split <;> rfl

/-- A session with `rows` rows for the preview, scrolled to `scroll` or as far as the preview
goes. -/
def rescroll (d : Disk) (s : Session) (rows scroll : Nat) : Session :=
  { { s with previewRows := rows }.remember d with
    previewScroll := min scroll ({ s with previewRows := rows }.maxScroll d) }

theorem rescroll_eq (d : Disk) (s : Session) (rows scroll : Nat) :
    s.rescroll d rows scroll = { s with
      previewRows := rows
      cached := ({ s with previewRows := rows }.remember d).cached
      previewScroll := min scroll ({ s with previewRows := rows }.maxScroll d) } := by
  rw [rescroll, remember_eq]

/-- What a call can do to a session.  Which keys do what is left open, and so are the sizes and the
disks. -/
inductive Effect (s : Session) : Session → Prop
  /-- It shows something else beside the outline, or shows a note. -/
  | present (mode : Mode) (status : Option String) :
    Effect s { s with mode := mode, status := status }
  /-- It selects a line further up, or any line there is. -/
  | select (index : Nat) (h : index ≤ s.selected ∨ index < s.lines.size) :
    Effect s (s.select index)
  | resize (rows : Nat) :
    Effect s { s with window := s.window.resize rows s.selected s.lines.size }
  | scrollUp : Effect s { s with previewScroll := s.previewScroll - 1 }
  | remember (d : Disk) : Effect s (s.remember d)
  | rescroll (d : Disk) (rows scroll : Nat) : Effect s (s.rescroll d rows scroll)

/-- A key of the outline leads upwards or to one of the lines. -/
theorem le_or_lt_of_target? {key : Key} {index : Nat} (h : s.target? key = some index) :
    index ≤ s.selected ∨ index < s.lines.size := by
  unfold target? at h
  dsimp only at h
  split at h <;> simp only [Option.some.injEq, reduceCtorEq] at h <;> omega

namespace Effect

theorem stay (s : Session) : Effect s s :=
  .present s.mode s.status

theorem treeKey (s : Session) (key : Key) : Effect s (s.treeKey key) := by
  unfold Session.treeKey
  split
  · exact stay s
  · rename_i index htarget
    exact .select index (le_or_lt_of_target? htarget)

theorem previewKey (d : Disk) (s : Session) (key : Key) : Effect s (s.previewKey d key) := by
  unfold Session.previewKey
  split
  · exact .scrollUp
  · exact .scrollUp
  · exact .rescroll d s.previewRows (s.previewScroll + 1)
  · exact .rescroll d s.previewRows (s.previewScroll + 1)
  · exact stay s

theorem press (d : Disk) (s : Session) (key : Key) : Effect s (s.press d key).1 := by
  unfold Session.press
  split
  · exact stay s
  · exact stay s
  · exact stay s
  · exact .present (toggled s.mode) s.status
  · split
    · exact treeKey s key
    · exact previewKey d s key

/-- Every call has one of the effects. -/
theorem perform (s : Session) (x : Disk × Call) : Effect s (s.perform x) := by
  obtain ⟨d, call⟩ := x
  cases call with
  | press key => exact press d s key
  | chord control key =>
    show Effect s (s.pressChord d control key).1
    unfold pressChord
    split
    · exact stay s
    · exact press d s key
  | setTreeRows rows =>
    show Effect s (s.setTreeRows rows)
    unfold setTreeRows
    split
    · exact stay s
    · exact .resize rows
  | setPreviewRows rows =>
    show Effect s (s.setPreviewRows d rows)
    unfold setPreviewRows
    split
    · exact stay s
    · exact .rescroll d rows s.previewScroll
  | preview => exact .remember d
  | previewLines height => exact .remember d
  | setStatus message => exact .present s.mode (some message)

end Effect

/-- What every effect keeps holds after every run. -/
theorem run_induction {P : Session → Prop} (hkeep : ∀ {s t}, Effect s t → P s → P t)
    (calls : List (Disk × Call)) (hs : P s) : P (s.run calls) := by
  induction calls generalizing s with
  | nil => exact hs
  | cons x calls ih => exact ih (hkeep (Effect.perform s x) hs)

/-! ### The outline stays -/

/-- A session on the forest of a list of declarations. -/
structure On (ds : List Declaration) (s : Session) : Prop where
  forest_eq : s.forest = build ds
  lines_eq : s.lines = (Outline.lines (build ds)).toArray

namespace Effect

/-- No call changes what is browsed. -/
theorem same_outline (h : Effect s t) : t.forest = s.forest ∧ t.lines = s.lines := by
  cases h with
  | present mode status => exact ⟨rfl, rfl⟩
  | select index _ => rw [select_eq]; exact ⟨rfl, rfl⟩
  | resize rows => exact ⟨rfl, rfl⟩
  | scrollUp => exact ⟨rfl, rfl⟩
  | remember d => rw [remember_eq]; exact ⟨rfl, rfl⟩
  | rescroll d rows scroll => rw [rescroll_eq]; exact ⟨rfl, rfl⟩

theorem on (h : Effect s t) (hs : s.On ds) : t.On ds where
  forest_eq := h.same_outline.1.trans hs.forest_eq
  lines_eq := h.same_outline.2.trans hs.lines_eq

end Effect

theorem on_run (root : String) (language : Language) (ds : List Declaration) (view : ViewSettings)
    (calls : List (Disk × Call)) : ((start root language (build ds) view).run calls).On ds :=
  run_induction Effect.on calls ⟨rfl, rfl⟩

/-! ### The selected line is in sight -/

/-- The selected line is one of the lines, if there are any, and in sight. -/
structure Framed (s : Session) : Prop where
  selected_eq_zero : s.lines.size = 0 → s.selected = 0
  selected_lt : 0 < s.lines.size → s.selected < s.lines.size
  inSight : s.window.InSight s.selected s.lines.size

/-- A session that follows the selected line is framed, wherever its window stood. -/
theorem framed_of_follow {w : Window} (hzero : s.lines.size = 0 → s.selected = 0)
    (hlt : 0 < s.lines.size → s.selected < s.lines.size)
    (hwindow : s.window = w.follow s.selected s.lines.size) : s.Framed where
  selected_eq_zero := hzero
  selected_lt := hlt
  inSight := by
    rw [hwindow]
    exact w.inSight_follow hlt

/-- Whatever moves the selection or the size of the window follows the selected line, and the rest
leaves both alone. -/
theorem Effect.framed (h : Effect s t) (hs : s.Framed) : t.Framed := by
  obtain ⟨hzero, hlt, hsight⟩ := hs
  cases h with
  | present mode status => exact ⟨hzero, hlt, hsight⟩
  | select index hindex =>
    rw [select_eq]
    -- a line further up is one of the lines because the selected one is
    refine framed_of_follow (w := s.window) ?_ ?_ rfl
    · intro (hsize : s.lines.size = 0)
      have := hzero hsize
      show index = 0
      omega
    · intro (hsize : 0 < s.lines.size)
      have := hlt hsize
      show index < s.lines.size
      omega
  | resize rows => exact framed_of_follow hzero hlt rfl
  | scrollUp => exact ⟨hzero, hlt, hsight⟩
  | remember d => rw [remember_eq]; exact ⟨hzero, hlt, hsight⟩
  | rescroll d rows scroll => rw [rescroll_eq]; exact ⟨hzero, hlt, hsight⟩

theorem framed_start (root : String) (language : Language) (forest : Forest)
    (view : ViewSettings) : (start root language forest view).Framed := by
  refine ⟨fun _ => rfl, fun hsize => hsize, ?_⟩
  constructor <;> intro hrows
  · rfl
  all_goals cases hrows

/-- **The selected line is always in sight**: however keys and sizes follow each other on the
forest of a list of declarations. -/
theorem framed_run (root : String) (language : Language) (ds : List Declaration)
    (view : ViewSettings) (calls : List (Disk × Call)) :
    ((start root language (build ds) view).run calls).On ds ∧
      ((start root language (build ds) view).run calls).Framed :=
  ⟨on_run root language ds view calls,
    run_induction Effect.framed calls (framed_start root language (build ds) view)⟩

end Session

end Lineage
