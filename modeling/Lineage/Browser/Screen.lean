import Lineage.Browser.Canvas
import Lineage.Browser.Session

/-!
# The screen of a session

A header with the census, the outline beside the details or the preview, and a footer with the
keys.  Drawing tells the session how many rows fit.
-/

namespace Lineage

namespace Screen

/-- The areas of a screen, from the top: header, outline, side panel and footer. -/
structure Layout where
  header : Area
  outline : Area
  side : Area
  footer : Area
  deriving DecidableEq, Repr, Inhabited

/-- Header and footer have three rows if there are as many; the outline has 55 of 100 columns,
rounded. -/
def layout (width height : Nat) : Layout :=
  let header := min 3 height
  let footer := min 3 (height - header)
  let body := height - header - footer
  let outline := (55 * width + 50) / 100
  { header := ⟨0, 0, width, header⟩
    outline := ⟨0, header, outline, body⟩
    side := ⟨outline, header, width - outline, body⟩
    footer := ⟨0, header + body, width, footer⟩ }

/-- A frame with lines of text inside. -/
def panel (c : Canvas) (a : Area) (title : String) (lines : List StyledLine) : Canvas :=
  (c.box a title).writeLines a.inner lines

/-- The line of the header. -/
def headerLine (s : Session) : StyledLine :=
  [⟨"classtree ", Style.strong .cyan⟩,
   ⟨s.root, {}⟩,
   ⟨"  ·  ", {}⟩,
   ⟨s.language.displayName, Style.strong .yellow⟩,
   ⟨"  ·  " ++ toString s.census.total ++ " classes, " ++ toString s.census.nested ++
     " nested, max depth " ++ toString s.census.maxDepth ++ ", " ++
     toString s.census.deep.length ++ " deep", {}⟩]

/-- The line of the footer: the keys, and the note that is shown. -/
def footerLine (s : Session) : StyledLine :=
  let key (text : String) : Span := ⟨text, Style.strong .yellow⟩
  let word (text : String) : Span := ⟨text, {}⟩
  (match s.mode with
    | .tree => [key "↑↓/jk", word " move  ", key "PgUp/PgDn/Home/End", word " jump  ",
        key "Enter", word " preview  "]
    | .preview => [key "↑↓/jk", word " scroll  ", key "Enter", word " tree  "]) ++
  [key "e", word " export  ", key "q", word " quit"] ++
  match s.status with
  | none => []
  | some status => [word "   ", ⟨status, Style.coloured .green⟩]

/-- A line of the outline; the label of the selected one is set off. -/
def outlineRow (line : OutlineLine) (isSelected : Bool) : StyledLine :=
  let style := Style.ofModifier line.modifier line.isNested
  [⟨line.rails, Style.coloured .darkGray⟩,
   ⟨line.label,
    if isSelected then { style with background := some .darkGray, bold := true } else style⟩]

/-- The lines of the outline that are in sight. -/
def outlineRows (s : Session) : List StyledLine :=
  let total := s.lines.size
  let first := s.window.start total
  ((List.range (s.window.stop total - first)).filterMap (fun k =>
    let index := first + k
    s.lines[index]?.map (fun line => outlineRow line (index == s.selected))))

/-- Draws the outline. -/
def drawOutline (c : Canvas) (a : Area) (s : Session) : Canvas :=
  let inside := a.inner
  let c := c.box a " Classes "
  if inside.isEmpty then c
  else
    ((outlineRows s).foldl (fun (state : Canvas × Nat) row =>
      (state.1.writeLine inside.x state.2 inside.width row, state.2 + 1)) (c, inside.y)).1

/-- The title of the preview. -/
def previewTitle (d : Disk) (s : Session) : String :=
  match s.preview? d with
  | none => " Preview "
  | some p => " Preview: " ++ (Path.fileName? p.path).getD p.path ++ " "

/-- The rows of source text that a side panel shows; one row is kept for the note on further
lines. -/
def previewHeight (s : Session) (a : Area) : Nat :=
  max (min s.view.previewHeight (a.inner.height - 1)) 1

/-- Draws the side panel and returns the session afterwards. -/
def drawSide (d : Disk) (c : Canvas) (a : Area) (s : Session) (highlight : Highlighter) :
    Canvas × Session :=
  match s.mode with
  | .tree =>
    let lines := (s.selectedNode?.bind (fun i =>
      Details.lines? d s.forest i s.root s.view)).getD []
    (panel c a " Details " lines, s)
  | .preview =>
    let title := previewTitle d s
    let s := s.remember d
    let height := previewHeight s a
    let s := s.setPreviewRows d height
    (panel c a title (s.previewLines d height highlight), s)

/-- Draws a session on a canvas of the given size and returns the session afterwards. -/
def draw (d : Disk) (s : Session) (width height : Nat) (highlight : Highlighter) :
    Canvas × Session :=
  let areas := layout width height
  let c := panel (Canvas.blank width height) areas.header "" [headerLine s]
  let s := s.setTreeRows areas.outline.inner.height
  let c := drawOutline c areas.outline s
  let (c, s) := drawSide d c areas.side s highlight
  (panel c areas.footer "" [footerLine s], s)

/-- A stretch of cells of one style in a row. -/
structure StyleRun where
  x : Nat
  y : Nat
  length : Nat
  style : Style
  deriving DecidableEq, Repr, Inhabited

/-- The stretches of one style in a row, from column `x` on, with `current` being open. -/
def rowRuns (y x : Nat) (current : Option StyleRun) : List Cell → List StyleRun
  | [] => current.toList
  | cell :: rest =>
    match current with
    | none => rowRuns y (x + 1) (some ⟨x, y, 1, cell.style⟩) rest
    | some run =>
      if run.style == cell.style then
        rowRuns y (x + 1) (some { run with length := run.length + 1 }) rest
      else run :: rowRuns y (x + 1) (some ⟨x, y, 1, cell.style⟩) rest

/-- The stretches of a canvas that are not in the default style. -/
def styleRuns (c : Canvas) : List StyleRun :=
  ((List.range c.height).zip c.rows).flatMap (fun (y, row) =>
    (rowRuns y 0 none row).filter (fun run => run.style != {}))

end Screen

end Lineage
