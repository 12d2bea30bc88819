/-!
# Paths

A path is a text whose parts are separated by slashes.  Two paths are the same if their components
are: doubled slashes, a slash at the end and dots in the middle do not count.
-/

namespace Lineage

/-- A part of a path. -/
inductive Component where
  /-- The top of the file system. -/
  | root
  /-- The current folder, at the start of a path. -/
  | here
  /-- The folder above. -/
  | up
  | name (text : String)
  deriving DecidableEq, Repr, Inhabited

namespace Component

/-- The place of a kind of component in the order of paths. -/
def rank : Component → Nat
  | root => 0
  | here => 1
  | up => 2
  | name _ => 3

/-- Components compare by kind, and names by their characters. -/
def before (a b : Component) : Bool :=
  match a, b with
  | name s, name t => decide (s < t)
  | a, b => a.rank < b.rank

end Component

namespace Path

/-- Whether a path starts at the top of the file system. -/
def isAbsolute (path : String) : Bool :=
  path.toList.head? == some '/'

/-- The component that a segment between slashes stands for; empty segments and dots stand for
none. -/
def segment? (segment : List Char) : Option Component :=
  match segment with
  | [] => none
  | ['.'] => none
  | ['.', '.'] => some .up
  | text => some (.name (String.ofList text))

/-- The components of `text`, each with the text after it, where the segment before `text` is
`current`, its last character first. -/
def segments (current : List Char) : List Char → List (Component × List Char)
  | [] => ((segment? current.reverse).map (fun c => (c, []))).toList
  | '/' :: rest =>
    ((segment? current.reverse).map (fun c => (c, rest))).toList ++ segments [] rest
  | c :: rest => segments (c :: current) rest

/-- The components of a path, each with the text after it. -/
def steps (path : List Char) : List (Component × List Char) :=
  match path with
  | '/' :: rest => (.root, rest) :: segments [] rest
  | ['.'] => [(.here, [])]
  | '.' :: '/' :: rest => (.here, '/' :: rest) :: segments [] rest
  | path => segments [] path

/-- The components of a path. -/
def components (path : String) : List Component :=
  (steps path.toList).map (·.1)

/-- Whether two paths are the same. -/
def same (a b : String) : Bool :=
  components a == components b

/-- Whether one list of components comes before another: the first difference decides, and a start
comes before what it starts. -/
def componentsBefore : List Component → List Component → Bool
  | _, [] => false
  | [], _ :: _ => true
  | a :: as, b :: bs => a.before b || (a == b && componentsBefore as bs)

/-- Whether a path comes before another one. -/
def precedes (a b : String) : Bool :=
  componentsBefore (components a) (components b)

/-- Sorts paths by their components. -/
def sort (paths : List String) : List String :=
  paths.mergeSort (fun a b => !precedes b a)

/-- `tail` below `base`, or `tail` itself if it is absolute. -/
def join (base tail : String) : String :=
  if isAbsolute tail || base.isEmpty then tail
  else if base.toList.getLast? == some '/' then base ++ tail
  else base ++ "/" ++ tail

/-- Drops segments that stand for no component from the start of a text. -/
def trimStart (current : List Char) : List Char → List Char
  | [] => if (segment? current.reverse).isSome then current.reverse else []
  | '/' :: rest =>
    if (segment? current.reverse).isSome then current.reverse ++ '/' :: rest
    else trimStart [] rest
  | c :: rest => trimStart (c :: current) rest

/-- Drops segments that stand for no component from the end of a text. -/
def trimEnd (text : List Char) : List Char :=
  (trimStart [] text.reverse).reverse

/-- A whole path without the segments at its end that stand for no component; a leading slash or
dot stays. -/
def trimWhole (path : List Char) : List Char :=
  match path with
  | '/' :: rest => '/' :: trimEnd rest
  | ['.'] => ['.']
  | '.' :: '/' :: rest =>
    match trimEnd rest with
    | [] => ['.']
    | kept => '.' :: '/' :: kept
  | path => trimEnd path

/-- The text after the components `base`, if the steps of a path start with them. -/
def afterComponents : List Component → List Char → List (Component × List Char) →
    Option (List Char)
  | [], rest, _ => some rest
  | _ :: _, _, [] => none
  | b :: base, _, (c, rest) :: steps =>
    if b == c then afterComponents base rest steps else none

/-- What remains of a path after the components of `base`. -/
def relativeTo? (path base : String) : Option String :=
  let chars := path.toList
  match components base with
  | [] => some (String.ofList (trimWhole chars))
  | base => (afterComponents base chars (steps chars)).map (fun rest =>
      String.ofList (trimEnd (trimStart [] rest)))

/-- The names from the top to where a path leads from the folder at the end of `current`, if every
folder on the way exists. -/
def namesFrom (current : List String) (path : String) : List String :=
  (components path).foldl (fun names component =>
    match component with
    | .root => []
    | .here => names
    | .up => names.dropLast
    | .name text => names ++ [text]) current

/-- The last component of a path, if it is a name. -/
def fileName? (path : String) : Option String :=
  match (components path).getLast? with
  | some (.name text) => some text
  | _ => none

/-- The part of a file name after its last dot.  A dot at the start does not count. -/
def extensionOf? (fileName : String) : Option String :=
  let back := fileName.toList.reverse
  let tail := back.takeWhile (· != '.')
  match back.dropWhile (· != '.') with
  | [] => none
  | [_] => none
  | _ :: _ :: _ => some (String.ofList tail.reverse)

end Path

end Lineage
