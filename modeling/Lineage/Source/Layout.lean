import Lineage.Declaration
import Lineage.Pattern.Match
import Lineage.Source.Brace

/-!
# Classes set apart by indentation

The body of a class is made of the lines after its header that are indented deeper than the
header; blank lines and comments never end it.  A class belongs to the last earlier class that is
indented less and reaches to its line.
-/

namespace Lineage.Source

open Pattern

/-- A class header: a name, perhaps type parameters, perhaps a list of bases, and a colon. -/
def layoutHeader : Pattern :=
  sequence [
    lineStart,
    marked .indent tabs,
    literal "class", tabs1,
    marked .name identifier,
    tabs,
    optional (sequence [literal "[", run (noneOf "]") true, literal "]"]),
    tabs,
    optional (sequence [literal "(", marked .bases (run (noneOf ")") true), literal ")"]),
    tabs,
    literal ":"]

/-- The start of a method. -/
def layoutMethod : Pattern :=
  sequence [
    lineStart, tabs,
    optional (seq (literal "async") tabs1),
    literal "def", tabs1,
    marked .name (some1 Text.isWord),
    tabs,
    literal "("]

/-- The mark of an abstract method. -/
def abstractMark : Pattern :=
  sequence [lineStart, tabs, literal "@", optional (literal "abc."), literal "abstractmethod",
    wordEdge]

/-- Whether a line is empty or only a comment. -/
def isSilent (line : List Char) : Bool :=
  match Text.trim line with
  | [] => true
  | c :: _ => c == '#'

/-- The number of newlines before a place. -/
def lineAt (text : List Char) (position : Nat) : Nat :=
  (text.take position).count '\n'

/-- The last line of a body, where `last` is the last line known to belong to it and `line` the
number of the first of the lines that follow. -/
def lastOfBody (indent : Nat) (line last : Nat) : List (List Char) → Nat
  | [] => last
  | content :: rest =>
    if isSilent content then lastOfBody indent (line + 1) line rest
    else if indentation content ≤ indent then last
    else lastOfBody indent (line + 1) line rest

/-- The last line of the class whose header ends on line `header`. -/
def extentEnd (lines : List (List Char)) (header indent : Nat) : Nat :=
  lastOfBody indent (header + 1) header (lines.drop (header + 1))

/-- A class with its indentation and its lines. -/
structure Extent where
  name : String
  indent : Nat
  first : Nat
  last : Nat
  deriving DecidableEq, Repr, Inhabited

namespace Extent

/-- Whether a class that starts on line `first` with indentation `indent` lies inside. -/
def holds (e : Extent) (indent first : Nat) : Bool :=
  e.indent < indent && e.first < first && first ≤ e.last

end Extent

/-- `text` up to and after the first equals sign, if there is one. -/
def splitEquals (text : List Char) : Option (List Char × List Char) :=
  match text.dropWhile (· != '=') with
  | [] => none
  | _ :: value => some (text.takeWhile (· != '='), value)

/-- Whether an entry of a base list gives the metaclass of abstract classes. -/
def isAbstractMeta (entry : List Char) : Bool :=
  match splitEquals entry with
  | none => false
  | some (key, value) =>
    Text.trim key == "metaclass".toList &&
      "ABCMeta".toList.reverse.isPrefixOf (Text.trim value).reverse

/-- Whether an entry of a base list names a base: not a keyword argument, and not the class that
everything derives from. -/
def isBase (entry : List Char) : Bool :=
  (splitEquals entry).isNone && !entry.isEmpty && entry != "object".toList

/-- The entries of a base list. -/
def baseEntries (list : List Char) : List (List Char) :=
  (Text.pieces (· == ',') list).map Text.trim

/-- The lines of the class of a header, from the first line of the header on. -/
def extent? (text : List Char) (lines : List (List Char)) (found : Match) : Option Extent := do
  let name ← found.get? .name
  let margin ← found.get? .indent
  let indent := indentation margin.chars
  let header := lineAt text (found.stop - 1)
  some ⟨name.text, indent, lineAt text found.start, extentEnd lines header indent⟩

/-- The class of a header with the given lines; `earlier` holds the extents of the classes before
it, the last one first. -/
def declareLines (file : String) (lines : List (List Char)) (earlier : List Extent)
    (found : Match) (extent : Extent) : Declaration :=
  let body := Text.join ['\n']
    ((lines.drop extent.first).take (extent.last + 1 - extent.first))
  let entries := match found.get? .bases with
    | none => []
    | some capture => baseEntries capture.chars
  let bases := (entries.filter isBase).map String.ofList
  { name := extent.name
    file
    base := bases.head?
    interfaces := bases.drop 1
    isAbstract := entries.any isAbstractMeta ||
      bases.any (fun base => base == "ABC" || base == "abc.ABC") ||
      abstractMark.occursIn body
    methods := (layoutMethod.matchesIn body).length
    lines := extent.last - extent.first + 1
    container := (earlier.find? (·.holds extent.indent extent.first)).map (·.name) }

/-- Reads the classes of a list of header matches; `earlier` holds the extents of the classes read
so far, the last one first. -/
def readLayout (file : String) (text : List Char) (lines : List (List Char))
    (earlier : List Extent) : List Match → List Declaration
  | [] => []
  | found :: rest =>
    match extent? text lines found with
    | none => readLayout file text lines earlier rest
    | some extent =>
      declareLines file lines earlier found extent ::
        readLayout file text lines (extent :: earlier) rest

/-- The classes of a text in a language with indentation. -/
def layoutClasses (file : String) (text : List Char) : List Declaration :=
  readLayout file text (Text.lines text) [] (layoutHeader.matchesIn text)

end Lineage.Source
