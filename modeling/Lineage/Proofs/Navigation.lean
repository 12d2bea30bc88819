import Lineage.Proofs.Session

/-!
# Navigation without files

A session reads files for its preview, and what it reads reaches the scroll of the preview.  It
reaches nothing else: `unread` forgets the two fields that files can reach, and what a call does to
the rest depends neither on them nor on the disk (`unread_perform`).  So two runs of the same calls
on different disks show the same (`trace_eq_of_unread_eq`), and the keys between two presses of
enter leave the outline where it was (`bearings_run_of_keys`).
-/

namespace Lineage.Session

open Forest

variable {s t : Session}

/-! ### What a session shows of its navigation -/

/-- What is shown beside the preview itself. -/
structure Bearings where
  mode : Mode
  selected : Nat
  window : Window
  previewRows : Nat
  status : Option String
  deriving DecidableEq, Repr

/-- The bearings of a session. -/
def bearings (s : Session) : Bearings :=
  ⟨s.mode, s.selected, s.window, s.previewRows, s.status⟩

/-- The action that a call returns; only keys return one. -/
def respond (s : Session) : Disk × Call → Option Action
  | (d, .press key) => some (s.press d key).2
  | (d, .chord control key) => some (s.pressChord d control key).2
  | _ => none

/-- What is seen of a run: after each call its action and the bearings. -/
def trace (s : Session) : List (Disk × Call) → List (Option Action × Bearings)
  | [] => []
  | x :: calls => (s.respond x, (s.perform x).bearings) :: (s.perform x).trace calls

/-! ### Actions -/

/-- What a key asks for, perhaps together with the control key. -/
def asks (control : Bool) (key : Key) : Action :=
  match key with
  | .char 'q' | .escape => .quit
  | .char 'e' => .save
  | .char 'c' => if control then .quit else .stay
  | _ => .stay

/-- A key that asks for something changes nothing. -/
theorem press_of_asks {key : Key} (h : asks false key ≠ .stay) (d : Disk) (s : Session) :
    s.press d key = (s, asks false key) := by
  unfold asks at h ⊢
  split at h
  · rfl
  · rfl
  · rfl
  · exact absurd rfl h
  · exact absurd rfl h

theorem snd_press (d : Disk) (s : Session) (key : Key) : (s.press d key).2 = asks false key := by
  by_cases h : asks false key = .stay
  · rw [h]
    unfold press
    unfold asks at h
    split
    · cases h
    · cases h
    · cases h
    · rfl
    · split <;> rfl
  · rw [press_of_asks h]

theorem asks_of_ne_c {control : Bool} {key : Key} (h : ¬ (control && key == .char 'c') = true) :
    asks control key = asks false key := by
  cases control with
  | false => rfl
  | true =>
    have hkey : key ≠ .char 'c' := by simpa using h
    unfold asks
    split
    · rfl
    · rfl
    · rfl
    · exact absurd rfl hkey
    · rfl

theorem pressChord_of_asks {control : Bool} {key : Key} (h : asks control key ≠ .stay) (d : Disk)
    (s : Session) : s.pressChord d control key = (s, asks control key) := by
  unfold pressChord
  split
  · rename_i hc
    rw [Bool.and_eq_true, beq_iff_eq] at hc
    rw [hc.1, hc.2]
    rfl
  · rename_i hc
    rw [asks_of_ne_c hc] at h ⊢
    exact press_of_asks h d s

theorem snd_pressChord (d : Disk) (s : Session) (control : Bool) (key : Key) :
    (s.pressChord d control key).2 = asks control key := by
  by_cases h : asks control key = .stay
  · have hc : ¬ (control && key == .char 'c') = true := by
      intro hc
      rw [Bool.and_eq_true, beq_iff_eq] at hc
      rw [hc.1, hc.2] at h
      cases h
    rw [pressChord, if_neg hc, snd_press, asks_of_ne_c hc]
  · rw [pressChord_of_asks h]

/-- The action of a call depends neither on the session nor on the disk. -/
theorem respond_congr (s t : Session) (d d' : Disk) (call : Call) :
    s.respond (d, call) = t.respond (d', call) := by
  cases call with
  | press key => rw [respond, respond, snd_press, snd_press]
  | chord control key => rw [respond, respond, snd_pressChord, snd_pressChord]
  | _ => rfl

/-! ### What files can reach -/

/-- A session as if it had read no file. -/
def unread (s : Session) : Session :=
  { s with previewScroll := 0, cached := none }

@[simp]
theorem bearings_unread (s : Session) : s.unread.bearings = s.bearings := rfl

theorem unread_select (s : Session) (index : Nat) :
    (s.select index).unread = (s.unread.select index).unread := by
  rw [select_eq, select_eq]
  rfl

theorem unread_remember (d : Disk) (s : Session) : (s.remember d).unread = s.unread := by
  rw [remember_eq]
  rfl

theorem unread_rescroll (d : Disk) (s : Session) (rows scroll : Nat) :
    (s.rescroll d rows scroll).unread = { s with previewRows := rows }.unread := by
  rw [rescroll_eq]
  rfl

theorem unread_treeKey (s : Session) (key : Key) :
    (s.treeKey key).unread = (s.unread.treeKey key).unread := by
  have htarget : s.unread.target? key = s.target? key := rfl
  unfold treeKey
  rw [htarget]
  split
  · rfl
  · exact unread_select s _

/-- A key of the preview moves nothing but the preview. -/
theorem unread_previewKey (d : Disk) (s : Session) (key : Key) :
    (s.previewKey d key).unread = s.unread := by
  unfold previewKey
  split
  · rfl
  · rfl
  · exact unread_rescroll d s s.previewRows (s.previewScroll + 1)
  · exact unread_rescroll d s s.previewRows (s.previewScroll + 1)
  · rfl

theorem unread_press (d d' : Disk) (s : Session) (key : Key) :
    (s.press d key).1.unread = (s.unread.press d' key).1.unread := by
  have hmode : s.unread.mode = s.mode := rfl
  unfold press
  split
  · rfl
  · rfl
  · rfl
  · rfl
  · rw [hmode]
    split
    · exact unread_treeKey s key
    · exact (unread_previewKey d s key).trans (unread_previewKey d' s.unread key).symm

/-- What a call does beside the preview depends neither on the preview nor on the disk. -/
theorem unread_perform (s : Session) (d d' : Disk) (call : Call) :
    (s.perform (d, call)).unread = (s.unread.perform (d', call)).unread := by
  cases call with
  | press key => exact unread_press d d' s key
  | chord control key =>
    show (s.pressChord d control key).1.unread = (s.unread.pressChord d' control key).1.unread
    unfold pressChord
    split
    · rfl
    · exact unread_press d d' s key
  | setTreeRows rows =>
    show (s.setTreeRows rows).unread = (s.unread.setTreeRows rows).unread
    have hrows : s.unread.window = s.window := rfl
    unfold setTreeRows
    rw [hrows]
    split <;> rfl
  | setPreviewRows rows =>
    show (s.setPreviewRows d rows).unread = (s.unread.setPreviewRows d' rows).unread
    have hrows : s.unread.previewRows = s.previewRows := rfl
    unfold setPreviewRows
    rw [hrows]
    split
    · rfl
    · exact (unread_rescroll d s rows s.previewScroll).trans
        (unread_rescroll d' s.unread rows s.unread.previewScroll).symm
  | preview => exact (unread_remember d s).trans (unread_remember d' s.unread).symm
  | previewLines height => exact (unread_remember d s).trans (unread_remember d' s.unread).symm
  | setStatus message => rfl

/-- Two runs of the same calls look the same, however the files of the two differ, if the sessions
differ only in what they have read. -/
theorem trace_eq_of_unread_eq (h : s.unread = t.unread) {calls calls' : List (Disk × Call)}
    (hcalls : calls.map Prod.snd = calls'.map Prod.snd) : s.trace calls = t.trace calls' := by
  induction calls generalizing s t calls' with
  | nil =>
    rw [List.map_nil, eq_comm, List.map_eq_nil_iff] at hcalls
    rw [hcalls]
    rfl
  | cons x calls ih =>
    obtain ⟨d, call⟩ := x
    cases calls' with
    | nil => simp at hcalls
    | cons x' calls' =>
      obtain ⟨d', call'⟩ := x'
      rw [List.map_cons, List.map_cons, List.cons.injEq] at hcalls
      obtain ⟨rfl, hrest⟩ : call = call' ∧ _ := hcalls
      have hstep : (s.perform (d, call)).unread = (t.perform (d', call)).unread := by
        rw [unread_perform s d d', h, ← unread_perform t d' d']
      have hbearings : (s.perform (d, call)).bearings = (t.perform (d', call)).bearings := by
        rw [← bearings_unread, hstep, bearings_unread]
      rw [trace, trace, respond_congr s t d d', hbearings, ih hstep hrest]

/-! ### Looking at the preview -/

/-- The key of a call, if it is one. -/
def Call.key? : Call → Option Key
  | .press key | .chord _ key => some key
  | _ => none

/-- While the preview is shown, only enter leads back. -/
theorem bearings_press (hmode : s.mode = .preview) {key : Key} (hkey : key ≠ .enter) (d : Disk) :
    (s.press d key).1.bearings = s.bearings := by
  unfold press
  split
  · rfl
  · rfl
  · rfl
  · exact absurd rfl hkey
  · rw [hmode]
    show (s.previewKey d key).bearings = s.bearings
    rw [← bearings_unread, unread_previewKey, bearings_unread]

theorem bearings_perform (hmode : s.mode = .preview) {x : Disk × Call} {key : Key}
    (hx : x.2.key? = some key) (hkey : key ≠ .enter) : (s.perform x).bearings = s.bearings := by
  obtain ⟨d, call⟩ := x
  cases call with
  | press key' =>
    obtain rfl : key' = key := Option.some.inj hx
    exact bearings_press hmode hkey d
  | chord control key' =>
    obtain rfl : key' = key := Option.some.inj hx
    show (s.pressChord d control key').1.bearings = s.bearings
    unfold pressChord
    split
    · rfl
    · exact bearings_press hmode hkey d
  | setTreeRows rows => cases hx
  | setPreviewRows rows => cases hx
  | preview => cases hx
  | previewLines height => cases hx
  | setStatus message => cases hx

theorem bearings_run_of_keys (hmode : s.mode = .preview) {calls : List (Disk × Call)}
    (hcalls : ∀ x ∈ calls, ∃ key, x.2.key? = some key ∧ key ≠ .enter) :
    (s.run calls).bearings = s.bearings := by
  induction calls generalizing s with
  | nil => rfl
  | cons x calls ih =>
    obtain ⟨key, hx, hkey⟩ := hcalls x List.mem_cons_self
    have hstep : (s.perform x).bearings = s.bearings := bearings_perform hmode hx hkey
    have hmode' : (s.perform x).mode = .preview := (congrArg Bearings.mode hstep).trans hmode
    exact (ih hmode' (fun y hy => hcalls y (List.mem_cons_of_mem x hy))).trans hstep

/-- Entering the preview and leaving it again leads back, whatever keys are pressed there. -/
theorem bearings_excursion (hmode : s.mode = .tree) {calls : List (Disk × Call)}
    (hcalls : ∀ x ∈ calls, ∃ key, x.2.key? = some key ∧ key ≠ .enter) (d d' : Disk) :
    (s.run ((d, .press .enter) :: calls ++ [(d', .press .enter)])).bearings = s.bearings := by
  have hinside : (s.run ((d, .press .enter) :: calls)).bearings =
      { s with mode := toggled s.mode }.bearings :=
    bearings_run_of_keys (s := { s with mode := toggled s.mode }) (by rw [hmode]; rfl) hcalls
  have hlast : s.run ((d, .press .enter) :: calls ++ [(d', .press .enter)]) =
      (s.run ((d, .press .enter) :: calls)).perform (d', .press .enter) :=
    List.foldl_append
  generalize s.run ((d, .press .enter) :: calls) = inside at hinside hlast
  rw [hlast]
  show { inside.bearings with mode := toggled inside.bearings.mode } = s.bearings
  rw [hinside]
  show Bearings.mk (toggled (toggled s.mode)) s.selected s.window s.previewRows s.status = _
  rw [toggled_toggled]
  rfl

/-- **Navigation does not depend on the files**: what is seen of a run is the same whatever the
disks hold; a look at the preview that ends with enter leads back to the same bearings; and the keys
that ask for something change nothing at all. -/
theorem navigation_blind (root : String) (language : Language) (ds : List Declaration)
    (view : ViewSettings) :
    (∀ calls calls' : List (Disk × Call), calls.map Prod.snd = calls'.map Prod.snd →
      (start root language (build ds) view).trace calls =
        (start root language (build ds) view).trace calls') ∧
    (∀ (calls keys : List (Disk × Call)) (d d' : Disk),
      let s := (start root language (build ds) view).run calls
      s.mode = .tree → (∀ x ∈ keys, ∃ key, x.2.key? = some key ∧ key ≠ .enter) →
        (s.run ((d, .press .enter) :: keys ++ [(d', .press .enter)])).bearings = s.bearings) ∧
    (∀ (s : Session) (d : Disk) (control : Bool) (key : Key),
      (s.press d key).2 = asks false key ∧ (s.pressChord d control key).2 = asks control key ∧
      (asks false key ≠ .stay → (s.press d key).1 = s) ∧
      (asks control key ≠ .stay → (s.pressChord d control key).1 = s)) := by
  refine ⟨fun calls calls' hcalls => trace_eq_of_unread_eq rfl hcalls,
    fun calls keys d d' hmode hkeys => bearings_excursion hmode hkeys d d',
    fun s d control key => ⟨snd_press d s key, snd_pressChord d s control key, ?_, ?_⟩⟩
  · intro h
    rw [press_of_asks h]
  · intro h
    rw [pressChord_of_asks h]

/-- A disk on which the only class has a file of two lines. -/
def shortFile : Disk :=
  { top := .folder [("A.py", .file (ByteArray.mk #[97, 10, 98]))] }

/-- A disk without files. -/
def noFile : Disk :=
  { top := .folder [] }

/-- A look at the preview of the only class, with one line in sight and scrolled down by one. -/
def glance (d : Disk) : List (Disk × Call) :=
  [.press .enter, .setPreviewRows 1, .press .down].map (d, ·)

/-- A glance scrolls if the file can be read and not otherwise, but both look alike in all else. -/
theorem navigation_blind_glance :
    let s := start "." .python (build [{ name := "A", file := "A.py" }]) {}
    (s.run (glance shortFile)).previewScroll = 1 ∧ (s.run (glance noFile)).previewScroll = 0 ∧
      s.trace (glance shortFile) = s.trace (glance noFile) :=
  ⟨by decide +kernel, by decide +kernel,
    (navigation_blind "." .python [{ name := "A", file := "A.py" }] {}).1 _ _ rfl⟩

end Lineage.Session
