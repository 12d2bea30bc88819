import Lineage.Browser.Details
import Lineage.Browser.Preview
import Lineage.Browser.Window
import Lineage.Census

/-!
# Browsing sessions

A session shows the outline of a forest with one line selected, and beside it the details of the
selected class or a preview of its file.  Keys move the selection or scroll the preview; what a key
asks of the outside is returned as an action.
-/

namespace Lineage

/-- What is shown beside the outline. -/
inductive Mode where
  | tree
  | preview
  deriving DecidableEq, Repr, Inhabited

/-- What a key asks for. -/
inductive Action where
  /-- Nothing. -/
  | stay
  /-- To export the outline. -/
  | save
  /-- To end the session. -/
  | quit
  deriving DecidableEq, Repr, Inhabited

/-- A key of the keyboard. -/
inductive Key where
  | char (c : Char)
  | up
  | down
  | pageUp
  | pageDown
  | home
  | ending
  | enter
  | escape
  /-- Any key without a meaning here. -/
  | other
  deriving DecidableEq, Repr, Inhabited

/-- The state of a session. -/
structure Session where
  root : String
  language : Language
  forest : Forest
  census : Census
  lines : Array OutlineLine
  view : ViewSettings
  mode : Mode := .tree
  selected : Nat := 0
  window : Window := {}
  previewScroll : Nat := 0
  /-- The rows of source text that the preview shows. -/
  previewRows : Nat
  /-- The last preview that was read. -/
  cached : Option Preview := none
  status : Option String := none

namespace Session

/-- The session that starts on a forest. -/
def start (root : String) (language : Language) (forest : Forest) (view : ViewSettings) :
    Session where
  root := root
  language := language
  forest := forest
  census := Census.ofForest forest
  lines := (Outline.lines forest).toArray
  view := view
  previewRows := view.previewHeight

/-- The class on the selected line. -/
def selectedNode? (s : Session) : Option NodeId :=
  s.lines[s.selected]?.map (·.node)

/-- The file of the selected class. -/
def selectedFile? (s : Session) : Option String :=
  s.selectedNode?.bind (fun i => (s.forest.node? i).map (·.declaration.file))

/-- Shows a note. -/
def setStatus (s : Session) (message : String) : Session :=
  { s with status := some message }

/-! ### The preview -/

/-- The preview of the selected file: the cached one if it is of that file, else a new one. -/
def preview? (d : Disk) (s : Session) : Option Preview :=
  s.selectedFile?.map (fun path =>
    match s.cached with
    | some p => if Path.same p.path path then p else Preview.load d path
    | none => Preview.load d path)

/-- Remembers the preview of the selected file. -/
def remember (d : Disk) (s : Session) : Session :=
  match s.preview? d with
  | none => s
  | some p => { s with cached := some p }

/-- The largest scroll of the preview of the selected file. -/
def maxScroll (d : Disk) (s : Session) : Nat :=
  match s.preview? d with
  | none => 0
  | some p => p.maxScroll s.previewRows

/-- The rows of the preview of the selected file. -/
def previewLines (d : Disk) (s : Session) (height : Nat) (highlight : Highlighter) :
    List StyledLine :=
  match s.preview? d with
  | none => []
  | some p => p.render s.previewScroll height s.view.previewColumns highlight s.language

/-! ### Sizes -/

/-- Tells the session how many lines of the outline fit. -/
def setTreeRows (s : Session) (rows : Nat) : Session :=
  if rows == s.window.rows then s
  else { s with window := s.window.resize rows s.selected s.lines.size }

/-- Tells the session how many rows of source text fit. -/
def setPreviewRows (d : Disk) (s : Session) (rows : Nat) : Session :=
  if rows == s.previewRows then s
  else
    let s := { s with previewRows := rows }
    { s.remember d with previewScroll := min s.previewScroll (s.maxScroll d) }

/-! ### Keys -/

/-- Selects a line and keeps it in sight; another line starts with an unscrolled preview. -/
def select (s : Session) (index : Nat) : Session :=
  let s := if index == s.selected then s else { s with selected := index, previewScroll := 0 }
  { s with window := s.window.follow s.selected s.lines.size }

/-- The line that a key of the outline leads to. -/
def target? (s : Session) (key : Key) : Option Nat :=
  let last := s.lines.size - 1
  let page := max s.window.rows 1
  match key with
  | .up | .char 'k' => some (s.selected - 1)
  | .down | .char 'j' => some (min (s.selected + 1) last)
  | .pageUp => some (s.selected - page)
  | .pageDown => some (min (s.selected + page) last)
  | .home => some 0
  | .ending => some last
  | _ => none

/-- A key while the details are shown. -/
def treeKey (s : Session) (key : Key) : Session :=
  match s.target? key with
  | none => s
  | some index => s.select index

/-- A key while the preview is shown. -/
def previewKey (d : Disk) (s : Session) (key : Key) : Session :=
  match key with
  | .up | .char 'k' => { s with previewScroll := s.previewScroll - 1 }
  | .down | .char 'j' =>
    { s.remember d with previewScroll := min (s.previewScroll + 1) (s.maxScroll d) }
  | _ => s

/-- The other mode. -/
def toggled : Mode → Mode
  | .tree => .preview
  | .preview => .tree

@[simp]
theorem toggled_toggled (mode : Mode) : toggled (toggled mode) = mode := by
  cases mode <;> rfl

/-- Handles a key. -/
def press (d : Disk) (s : Session) (key : Key) : Session × Action :=
  match key with
  | .char 'q' | .escape => (s, .quit)
  | .char 'e' => (s, .save)
  | .enter => ({ s with mode := toggled s.mode }, .stay)
  | key =>
    match s.mode with
    | .tree => (s.treeKey key, .stay)
    | .preview => (s.previewKey d key, .stay)

/-- Handles a key together with the control key, which makes `c` end the session. -/
def pressChord (d : Disk) (s : Session) (control : Bool) (key : Key) : Session × Action :=
  if control && key == .char 'c' then (s, .quit) else s.press d key

end Session

end Lineage
