import Lineage.Browser.Styled
import Lineage.Files.Disk
import Lineage.Language
import Lineage.Number.Decimal
import Lineage.Text.Blank
import Lineage.Text.Truncate

/-!
# Previews of source files

A preview holds the lines of a file and shows some of them behind their numbers.  A file that
cannot be read has a preview too, which shows why.
-/

namespace Lineage

/-- A way to colour a line of source text, which must keep the text. -/
abbrev Highlighter := Language → String → StyledLine

namespace Highlighter

/-- No colours. -/
def plain : Highlighter :=
  fun _ line => [⟨line, {}⟩]

end Highlighter

/-- The lines of a file, or the reason why there are none. -/
structure Preview where
  path : String
  content : Except String (List String)

namespace Preview

/-- A tab is shown as four blanks. -/
def expandTab (c : Char) : List Char :=
  if c == '\t' then [' ', ' ', ' ', ' '] else [c]

/-- The lines of a file as they are shown. -/
def shownLines (content : ByteArray) : List String :=
  (Text.lines (Text.decodeLossy content)).map (fun line =>
    String.ofList (line.flatMap expandTab))

/-- The words shown for a file that cannot be read. -/
def failureText : DiskError → String
  | .notFound => "file not found"
  | e => "error reading file: " ++ e.message

/-- Reads the preview of a file. -/
def load (d : Disk) (path : String) : Preview where
  path := path
  content := match d.read path with
    | .ok content => .ok (shownLines content)
    | .error e => .error (failureText e)

/-- The lines of a preview; none if the file could not be read. -/
def lines (p : Preview) : List String :=
  match p.content with
  | .ok lines => lines
  | .error _ => []

/-- The number of lines. -/
def totalLines (p : Preview) : Nat :=
  p.lines.length

/-- Why the file could not be read. -/
def failure? (p : Preview) : Option String :=
  match p.content with
  | .ok _ => none
  | .error message => some message

/-- The largest scroll that still fills a window of `height` rows. -/
def maxScroll (p : Preview) (height : Nat) : Nat :=
  p.totalLines - height

/-- The style of line numbers and notes. -/
def gutter : Style :=
  Style.coloured .darkGray

/-- The number of a line in front of it. -/
def numberSpan (columns number : Nat) : Span :=
  ⟨String.ofList (Number.padLeft columns (Number.digits number)) ++ " │ ", gutter⟩

/-- One line behind its number, cut to `columns` columns. -/
def numbered (highlight : Highlighter) (language : Language) (columns gutterColumns : Nat)
    (number : Nat) (line : String) : StyledLine :=
  numberSpan gutterColumns number ::
    highlight language (String.ofList (Text.truncate line.toList columns))

/-- Lines behind their numbers, the first of which is `number`. -/
def numberedFrom (highlight : Highlighter) (language : Language) (columns gutterColumns : Nat) :
    Nat → List String → List StyledLine
  | _, [] => []
  | number, line :: rest =>
    numbered highlight language columns gutterColumns number line ::
      numberedFrom highlight language columns gutterColumns (number + 1) rest

/-- The rows of a window of `height` rows after the first `scroll` lines, and a note on how many
lines are below it. -/
def render (p : Preview) (scroll height columns : Nat) (highlight : Highlighter)
    (language : Language) : List StyledLine :=
  match p.content with
  | .error message => [[⟨message, Style.coloured .red⟩]]
  | .ok lines =>
    let total := lines.length
    let start := min scroll total
    let stop := min (start + height) total
    let gutterColumns := (Number.digits (max total 1)).length
    numberedFrom highlight language columns gutterColumns (start + 1)
      ((lines.drop start).take (stop - start)) ++
    if stop < total then
      [[⟨"… " ++ toString (total - stop) ++ " more lines", gutter⟩]]
    else []

end Preview

end Lineage
