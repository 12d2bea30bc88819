import Lineage.Browser.Styled
import Lineage.Files.Disk
import Lineage.Number.Binary
import Lineage.Settings

/-!
# The details of a class

A panel of labelled lines about one class, with a small outline of what is below it.
-/

namespace Lineage

namespace Details

/-- A path relative to the folder that is looked at, if it lies in it. -/
def displayPath (path root : String) : String :=
  (Path.relativeTo? path root).getD path

/-- The last characters of a path behind a mark, if it has more than `limit`. -/
def shortenPath (path : String) (limit : Nat) : String :=
  let chars := path.toList
  if chars.length ≤ limit then path
  else
    let tail := chars.drop (chars.length - (limit - 2))
    "…/" ++ String.ofList (tail.dropWhile (· == '/'))

/-- A size in bytes, or in larger units with one decimal; the size is first rounded to a number
with a 53-bit mantissa. -/
def formatSize (bytes : Nat) : String :=
  let scaled (unit : Nat) : String :=
    let (num, den) := (Number.Binary.nearest bytes 1).quotient
    Number.oneDecimal num (den * unit)
  if bytes < 1024 then toString bytes ++ " B"
  else if bytes < 1024 * 1024 then scaled 1024 ++ " KB"
  else scaled (1024 * 1024) ++ " MB"

/-- A label with its value. -/
def field (label value : String) : StyledLine :=
  [⟨label ++ ": ", Style.coloured .yellow⟩, ⟨value, {}⟩]

/-- Names separated by commas, or a word for none. -/
def listed (names : List String) : String :=
  if names.isEmpty then "(none)" else ", ".intercalate names

/-- A dimmed line behind two blanks. -/
def dimmed (text : String) : StyledLine :=
  [⟨"  " ++ text, Style.coloured .darkGray⟩]

/-- The outline below a class, at most `limit` lines of it and a note on the rest. -/
def miniOutline (f : Forest) (i : NodeId) (limit : Nat) : List StyledLine :=
  let below := (Outline.subtree f i).drop 1
  (below.take limit).map (fun line => dimmed line.plain) ++
    if limit < below.length then
      [dimmed ("… " ++ toString (below.length - limit) ++ " more")]
    else []

/-- The lines about class `i`. -/
def lines (d : Disk) (f : Forest) (i : NodeId) (n : Node) (root : String)
    (view : ViewSettings) : List StyledLine :=
  let c := n.declaration
  let counts := f.descendants i
  let size := match d.size c.file with
    | .ok bytes => formatSize bytes
    | .error _ => "unknown"
  [[⟨c.name, Style.strong .cyan⟩],
   field "Namespace" (c.scope.getD "(none)"),
   field "Modifiers" (listed c.badges),
   field "Depth" (toString n.depth),
   field "Base class" (c.declaredBase.getD "(none)")] ++
  (match n.container with
    | some j => [field "Nested in" (f.qualifiedName j)]
    | none => []) ++
  [field "Interfaces" (listed c.interfaces),
   field "Descendants" (toString counts.total ++ " (" ++ toString counts.inherited ++
     " inherited, " ++ toString counts.nested ++ " nested)")] ++
  (if 0 < counts.total then miniOutline f i view.miniOutlineLines else []) ++
  [field "Methods" (toString c.methods),
   field "Lines" (toString c.lines),
   field "File" (shortenPath (displayPath c.file root) view.pathCharacters),
   field "Size" size]

/-- The lines about class `i`, if there is such a class. -/
def lines? (d : Disk) (f : Forest) (i : NodeId) (root : String) (view : ViewSettings) :
    Option (List StyledLine) :=
  (f.node? i).map (fun n => lines d f i n root view)

end Details

end Lineage
