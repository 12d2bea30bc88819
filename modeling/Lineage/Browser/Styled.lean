import Lineage.Outline

/-!
# Styled text

Text for a terminal is a list of spans, each with a colour and weights.
-/

namespace Lineage

/-- The colours that are used. -/
inductive Colour where
  | cyan
  | yellow
  | darkGray
  | red
  | white
  | magenta
  | blue
  | green
  deriving DecidableEq, Repr, Inhabited

namespace Colour

/-- The name of a colour. -/
def name : Colour → String
  | cyan => "cyan"
  | yellow => "yellow"
  | darkGray => "darkgray"
  | red => "red"
  | white => "white"
  | magenta => "magenta"
  | blue => "blue"
  | green => "green"

end Colour

/-- How text is shown; without a colour it takes the terminal's own. -/
structure Style where
  foreground : Option Colour := none
  background : Option Colour := none
  bold : Bool := false
  italic : Bool := false
  underlined : Bool := false
  deriving DecidableEq, Repr, Inhabited

namespace Style

/-- The weights of a style, by name. -/
def weights (s : Style) : List String :=
  (if s.bold then ["bold"] else []) ++ (if s.italic then ["italic"] else []) ++
    (if s.underlined then ["underlined"] else [])

/-- Text in one colour. -/
def coloured (colour : Colour) : Style :=
  { foreground := some colour }

/-- Bold text in one colour. -/
def strong (colour : Colour) : Style :=
  { foreground := some colour, bold := true }

/-- The style of the label of an outline line: a colour for each modifier, nested classes
slanted. -/
def ofModifier (modifier : Modifier) (nested : Bool) : Style :=
  let colour := match modifier with
    | .normal => Colour.white
    | .abstract => Colour.magenta
    | .sealed => Colour.red
    | .static => Colour.blue
  { foreground := some colour, italic := nested }

end Style

/-- A run of text in one style. -/
structure Span where
  text : String
  style : Style := {}
  deriving DecidableEq, Repr, Inhabited

/-- One line of styled text. -/
abbrev StyledLine := List Span

namespace StyledLine

/-- The text of a line without its styles. -/
def text (l : StyledLine) : String :=
  String.join (l.map (·.text))

end StyledLine

end Lineage
