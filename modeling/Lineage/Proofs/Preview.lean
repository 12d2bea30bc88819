import Lineage.Proofs.Depth
import Lineage.Proofs.Preorder
import Lineage.Proofs.Session

/-!
# The preview of a session

A session keeps the last preview that it read, under the path of its file, and reads again only
for another path.  So a preview may be older than its file, but it is never of another file
(`previews_of_preview?`).  The main statement is `clamped_run`: whatever happens to the files
between the calls, a scrolled session remembers the preview of the selected file and is not
scrolled past its end.
-/

namespace Lineage.Session

open Forest

variable {s t : Session} {ds : List Declaration} {d : Disk} {p : Preview}

/-! ### The preview of the selected file -/

/-- A preview is of the selected file if its path is the same. -/
def Previews (s : Session) (p : Preview) : Prop :=
  ∃ path, s.selectedFile? = some path ∧ Path.same p.path path = true

theorem previews_of_preview? (h : s.preview? d = some p) : s.Previews p := by
  obtain ⟨path, hpath, rfl⟩ := Option.map_eq_some_iff.1 h
  refine ⟨path, hpath, ?_⟩
  have hload : Path.same (Preview.load d path).path path = true := beq_self_eq_true _
  split
  · split_ifs with hsame
    · exact hsame
    · exact hload
  · exact hload

/-- The preview of the selected file is not read again while it is remembered, even if the file
has changed. -/
theorem preview?_of_cached (hcached : s.cached = some p) (hp : s.Previews p) (d : Disk) :
    s.preview? d = some p := by
  obtain ⟨path, hpath, hsame⟩ := hp
  rw [preview?, hpath, hcached, Option.map_some]
  dsimp only
  rw [if_pos hsame]

theorem remember_of_preview? (h : s.preview? d = some p) :
    s.remember d = { s with cached := some p } := by
  rw [remember, h]

/-- There is a preview whenever there are lines: the selected line is one of them, and it is the
line of a class. -/
theorem exists_preview? (hon : s.On ds) (hframed : s.Framed) (hsize : 0 < s.lines.size) (d : Disk) :
    ∃ p, s.preview? d = some p := by
  obtain ⟨l, hl⟩ : ∃ l, s.lines[s.selected]? = some l :=
    ⟨_, Array.getElem?_eq_getElem (hframed.selected_lt hsize)⟩
  have hnode : l.node < (build ds).size := by
    have hmem : l ∈ Outline.lines (build ds) := by
      rw [hon.lines_eq, List.getElem?_toArray] at hl
      exact List.mem_of_getElem? hl
    rw [← List.mem_range, ← (Outline.nodes_lines_perm ds).mem_iff]
    exact List.mem_map_of_mem hmem
  obtain ⟨node, hfind⟩ := exists_node? hnode
  have hfile : s.selectedFile? = some node.declaration.file := by
    rw [selectedFile?, selectedNode?, hl, hon.forest_eq, Option.map_some, Option.bind_some, hfind,
      Option.map_some]
  rw [preview?, hfile, Option.map_some]
  exact ⟨_, rfl⟩

/-! ### The scroll of the preview -/

/-- A scrolled session remembers the preview of the selected file, and the last row in sight is at
most the last one of that preview. -/
def Clamped (s : Session) : Prop :=
  s.previewScroll = 0 ∨
    ∃ p, s.cached = some p ∧ s.Previews p ∧ s.previewScroll ≤ p.totalLines - s.previewRows

/-- Scrolling goes no further than the preview that it remembers. -/
theorem clamped_rescroll (d : Disk) (s : Session) (rows scroll : Nat) :
    (s.rescroll d rows scroll).Clamped := by
  unfold rescroll
  generalize { s with previewRows := rows } = sized
  cases hp : sized.preview? d with
  | none =>
    have hmax : sized.maxScroll d = 0 := by rw [maxScroll, hp]
    left
    rw [hmax]
    exact Nat.min_zero _
  | some p =>
    have hmax : sized.maxScroll d = p.totalLines - sized.previewRows := by
      rw [maxScroll, hp]
      rfl
    have hpreviews : sized.Previews p := previews_of_preview? hp
    right
    rw [remember_of_preview? hp, hmax]
    exact ⟨p, rfl, hpreviews, Nat.min_le_right _ _⟩

theorem Effect.clamped (h : Effect s t) (hs : s.Clamped) : t.Clamped := by
  cases h with
  | present mode status => exact hs
  | select index _ =>
    rw [select_eq]
    by_cases hindex : index = s.selected
    · subst hindex
      rw [if_pos rfl]
      exact hs
    · -- another line may be of another file, whose preview is not the remembered one
      left
      exact if_neg hindex
  | resize rows => exact hs
  | scrollUp =>
    obtain hzero | ⟨p, hcached, hp, hle⟩ := hs
    · left
      show s.previewScroll - 1 = 0
      omega
    · exact Or.inr ⟨p, hcached, hp, (Nat.sub_le _ _).trans hle⟩
  | remember d =>
    obtain hzero | ⟨p, hcached, hp, hle⟩ := hs
    · left
      rw [remember_eq]
      exact hzero
    · -- the remembered preview stays the same one, so it is as long as before
      right
      rw [remember_of_preview? (preview?_of_cached hcached hp d)]
      exact ⟨p, rfl, hp, hle⟩
  | rescroll d rows scroll => exact clamped_rescroll d s rows scroll

/-- **A preview is of the selected file and never scrolled past its end**, whatever the calls are
and however the files change between them; and there is one whenever there are lines. -/
theorem clamped_run (root : String) (language : Language) (ds : List Declaration)
    (view : ViewSettings) (calls : List (Disk × Call)) :
    let s := (start root language (build ds) view).run calls
    s.On ds ∧ s.Clamped ∧
      (0 < s.lines.size → ∀ d, ∃ p,
        s.preview? d = some p ∧ s.Previews p ∧ (s.remember d).cached = some p) := by
  intro s
  have hon : s.On ds := on_run root language ds view calls
  have hframed : s.Framed :=
    run_induction Effect.framed calls (framed_start root language (build ds) view)
  refine ⟨hon, run_induction Effect.clamped calls (Or.inl rfl), fun hsize d => ?_⟩
  obtain ⟨p, hp⟩ := exists_preview? hon hframed hsize d
  refine ⟨p, hp, previews_of_preview? hp, ?_⟩
  rw [remember_of_preview? hp]

end Lineage.Session
