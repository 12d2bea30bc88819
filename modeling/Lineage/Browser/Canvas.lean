import Lineage.Browser.Styled
import Lineage.Text.Cluster
import Lineage.Text.Measure

/-!
# A canvas of cells

A terminal screen is a grid of cells, each with a short text and a style.  Text is written cluster
by cluster; a wide cluster fills its own cell and leaves the next one blank.
-/

namespace Lineage

/-- One place of a screen. -/
structure Cell where
  symbol : String := " "
  style : Style := {}
  deriving DecidableEq, Repr, Inhabited

/-- A rectangle of a screen. -/
structure Area where
  x : Nat
  y : Nat
  width : Nat
  height : Nat
  deriving DecidableEq, Repr, Inhabited

namespace Area

/-- Whether a rectangle has no cells. -/
def isEmpty (a : Area) : Bool :=
  a.width == 0 || a.height == 0

/-- What is left of a rectangle inside its frame. -/
def inner (a : Area) : Area :=
  ⟨min (a.x + 1) (a.x + a.width), min (a.y + 1) (a.y + a.height), a.width - 2, a.height - 2⟩

end Area

namespace Style

/-- A style on top of another one: its colours replace those below, its weights are added. -/
def onTopOf (top bottom : Style) : Style where
  foreground := top.foreground.or bottom.foreground
  background := top.background.or bottom.background
  bold := top.bold || bottom.bold
  italic := top.italic || bottom.italic
  underlined := top.underlined || bottom.underlined

end Style

/-- A grid of cells, row after row. -/
structure Canvas where
  width : Nat
  height : Nat
  cells : Array Cell
  deriving DecidableEq, Repr, Inhabited

namespace Canvas

/-- A canvas without anything on it. -/
def blank (width height : Nat) : Canvas :=
  ⟨width, height, Array.replicate (width * height) {}⟩

/-- The cell at a place. -/
def cell (c : Canvas) (x y : Nat) : Cell :=
  (c.cells[y * c.width + x]?).getD {}

/-- Changes the cell at a place, if the canvas has it. -/
def modify (c : Canvas) (x y : Nat) (change : Cell → Cell) : Canvas :=
  if x < c.width then { c with cells := c.cells.modify (y * c.width + x) change } else c

/-- Writes a symbol in a style. -/
def put (c : Canvas) (x y : Nat) (symbol : String) (style : Style) : Canvas :=
  c.modify x y (fun cell => ⟨symbol, style.onTopOf cell.style⟩)

/-- Makes a number of cells blank. -/
def clear (c : Canvas) (x y : Nat) : Nat → Canvas
  | 0 => c
  | count + 1 => (c.modify x y (fun _ => {})).clear (x + 1) y count

/-- The cells of each row. -/
def rows (c : Canvas) : List (List Cell) :=
  (List.range c.height).map (fun y => (List.range c.width).map (fun x => c.cell x y))

/-- The text of each row. -/
def texts (c : Canvas) : List String :=
  c.rows.map (fun row => String.join (row.map (·.symbol)))

/-! ### Text -/

/-- The clusters of a styled line, each with its style. -/
def lineClusters (line : StyledLine) : List (List Char × Style) :=
  line.flatMap (fun span => (Text.clusters span.text.toList).map (fun cluster =>
    (cluster, span.style)))

/-- Writes clusters from `x` up to the column `stop`; the first one that does not fit ends the
line. -/
def writeClusters (y stop : Nat) : Canvas → Nat → List (List Char × Style) → Canvas
  | c, _, [] => c
  | c, x, (cluster, style) :: rest =>
    let columns := Text.width cluster
    if columns == 0 then writeClusters y stop c x rest
    else if stop < x + columns then c
    else
      let c := (c.put x y (String.ofList cluster) style).clear (x + 1) y (columns - 1)
      writeClusters y stop c (x + columns) rest

/-- Writes a line into `columns` columns. -/
def writeLine (c : Canvas) (x y columns : Nat) (line : StyledLine) : Canvas :=
  writeClusters y (x + columns) c x (lineClusters line)

/-- Writes lines below each other; a cluster that is wider than the area is left out. -/
def writeLines (c : Canvas) (area : Area) (lines : List StyledLine) : Canvas :=
  ((lines.take area.height).foldl
    (fun (state : Canvas × Nat) line =>
      let clusters := (lineClusters line).filter (fun cluster =>
        Text.width cluster.1 ≤ area.width)
      (writeClusters state.2 (area.x + area.width) state.1 area.x clusters, state.2 + 1))
    (c, area.y)).1

/-! ### Frames -/

/-- The symbol of the frame of an area at one of its places, if the frame passes there.  Where the
area is too small for both sides of the frame, the left and the upper one are drawn. -/
def frameSymbol? (a : Area) (x y : Nat) : Option String :=
  let left := x == a.x
  let right := x + 1 == a.x + a.width
  let upper := y == a.y
  let lower := y + 1 == a.y + a.height
  if left && upper then some "┌"
  else if left && lower then some "└"
  else if right && upper then some "┐"
  else if right && lower then some "┘"
  else if lower && !upper then some "─"
  else if upper then some "─"
  else if left || right then some "│"
  else none

/-- Draws the frame of an area. -/
def frame (c : Canvas) (a : Area) : Canvas :=
  (List.range a.height).foldl (fun c dy =>
    (List.range a.width).foldl (fun c dx =>
      let x := a.x + dx
      let y := a.y + dy
      match frameSymbol? a x y with
      | none => c
      | some symbol => c.put x y symbol {}) c) c

/-- Draws a frame with a title in its upper side. -/
def box (c : Canvas) (a : Area) (title : String) : Canvas :=
  if a.isEmpty then c
  else
    writeClusters a.y (a.x + 1 + (a.width - 2)) (c.frame a) (a.x + 1) (lineClusters [⟨title, {}⟩])

end Canvas

end Lineage
