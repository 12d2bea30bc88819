import Lineage.Files.Ignore
import Lineage.Source.Classes
import Lineage.Text.Quoted

/-!
# Surveys of a folder

A survey collects the files of a language below a folder, sorted by path, and reads their classes.
Hidden entries, entries left out by ignore files, output folders and excluded paths are not looked
at, and nothing below them either.  A file that cannot be read is recorded and does not stop the
survey.
-/

namespace Lineage

namespace Survey

/-- Which files a survey looks at. -/
structure Options where
  /-- Whether to enter the folders below. -/
  recursive : Bool := true
  /-- Whether to obey ignore files. -/
  respectIgnore : Bool := true
  /-- Globs for paths, relative to the folder surveyed, that are left out. -/
  excludes : List String := []
  deriving DecidableEq, Repr, Inhabited

/-- Why a survey or the reading of a file fails. -/
inductive Error where
  | unreadable (path : String) (cause : DiskError)
  | missingRoot (root : String)
  | notFolder (root : String)
  | badExclude (glob : String) (cause : GlobError)
  deriving DecidableEq, Repr, Inhabited

namespace Error

/-- The failure in words. -/
def message : Error → String
  | unreadable path cause => "failed to read " ++ path ++ ": " ++ cause.message
  | missingRoot root => root ++ " does not exist"
  | notFolder root => root ++ " is not a directory"
  | badExclude glob cause =>
    "invalid exclude pattern " ++ Text.quoted glob ++ ": " ++ cause.message glob

/-- The failure behind this one, if it has one. -/
def cause? : Error → Option String
  | unreadable _ cause => some cause.message
  | badExclude glob cause => some (cause.message glob)
  | missingRoot _ | notFolder _ => none

end Error

/-! ### Collecting files -/

/-- What a walk needs to know. -/
structure Filter where
  language : Language
  options : Options
  /-- The patterns of the excluded paths. -/
  excludes : List Pattern
  /-- How many names lead from the top to the folder surveyed. -/
  depth : Nat

namespace Filter

/-- Whether an entry is left out by its name or by ignore files: what a rule keeps is not hidden. -/
def isPassedOver (f : Filter) (layers : List IgnoreLayer) (names : List String)
    (isFolder : Bool) : Bool :=
  let verdict := if f.options.respectIgnore then IgnoreLayer.verdict? layers names isFolder
    else none
  match verdict with
  | some keeps => !keeps
  | none => (names.getLast?.bind (·.toList.head?)) == some '.'

/-- Whether an entry is an output folder or an excluded path. -/
def isExcluded (f : Filter) (names : List String) (isFolder : Bool) : Bool :=
  (isFolder && names.getLast?.any f.language.outputFolders.contains) ||
    let path := "/".intercalate (names.drop f.depth)
    f.excludes.any (fun p => Glob.isMatch p path)

/-- Whether a walk looks at an entry. -/
def admits (f : Filter) (layers : List IgnoreLayer) (names : List String)
    (isFolder : Bool) : Bool :=
  !f.isPassedOver layers names isFolder && !f.isExcluded names isFolder

/-- Whether a file name belongs to the language. -/
def isSource (f : Filter) (name : String) : Bool :=
  ((Path.extensionOf? name).bind Language.ofExtension?) == some f.language

end Filter

mutual

/-- The files of the language at or below the entry at the end of `names`. -/
def walkEntry (f : Filter) (layers : List IgnoreLayer) (names : List String) :
    Tree → List (List String)
  | .file _ =>
    if f.admits layers names false && f.isSource (names.getLastD "") then [names] else []
  | .folder entries =>
    if f.options.recursive && f.admits layers names true then
      walkEntries f (IgnoreLayer.ofFolder names.length (.folder entries) :: layers) names entries
    else []

/-- The files of the language at or below the entries of the folder at the end of `names`. -/
def walkEntries (f : Filter) (layers : List IgnoreLayer) (names : List String) :
    List (String × Tree) → List (List String)
  | [] => []
  | (name, tree) :: rest =>
    walkEntry f layers (names ++ [name]) tree ++ walkEntries f layers names rest

end

/-- The patterns of the excluded paths. -/
def excludePatterns (globs : List String) : Except Error (List Pattern) :=
  globs.mapM (fun glob =>
    match Glob.parse false glob with
    | .error cause => .error (.badExclude glob cause)
    | .ok tokens => .ok (Glob.pattern false tokens))

/-- The names from the top to the folder to survey. -/
def rootNames (d : Disk) (root : String) : Except Error (List String) :=
  match d.resolve root with
  | .error _ => .error (.missingRoot root)
  | .ok names =>
    match d.at? names with
    | some (.folder _) => .ok names
    | _ => .error (.notFolder root)

/-- Every file of a language below a folder, sorted by path. -/
def files (d : Disk) (root : String) (language : Language) (options : Options) :
    Except Error (List String) := do
  let names ← rootNames d root
  let excludes ← excludePatterns options.excludes
  let f : Filter := ⟨language, options, excludes, names.length⟩
  let entries := ((d.at? names).map (·.entries)).getD []
  let found := walkEntries f (IgnoreLayer.above d.top names) names entries
  return Path.sort (found.map (fun file =>
    Path.join root ("/".intercalate (file.drop names.length))))

/-! ### Reading classes -/

/-- The classes of one file. -/
def classesOfFile (d : Disk) (language : Language) (path : String) :
    Except Error (List Declaration) :=
  match d.readText path with
  | .error cause => .error (.unreadable path cause)
  | .ok text => .ok (Source.classes language path (String.ofList text))

/-- A file whose classes could not be read. -/
structure Failure where
  path : String
  message : String
  deriving DecidableEq, Repr, Inhabited

/-- What a survey has found. -/
structure Report where
  /-- The classes in the order of the files and, in a file, of their headers. -/
  declarations : List Declaration := []
  scanned : Nat := 0
  failures : List Failure := []
  /-- After each file, how many of how many are done. -/
  progress : List (Nat × Nat) := []
  deriving DecidableEq, Repr, Inhabited

namespace Report

/-- Whether no class was found. -/
def isEmpty (r : Report) : Bool :=
  r.declarations.isEmpty

/-- Adds the outcome of one of `total` files. -/
def add (d : Disk) (language : Language) (total : Nat) (r : Report) (path : String) : Report :=
  let scanned := r.scanned + 1
  let progress := r.progress ++ [(scanned, total)]
  match classesOfFile d language path with
  | .ok found => { r with declarations := r.declarations ++ found, scanned, progress }
  | .error e => { r with failures := r.failures ++ [⟨path, e.message⟩], scanned, progress }

end Report

/-- Reads the classes of every file of a language below a folder. -/
def run (d : Disk) (root : String) (language : Language) (options : Options) :
    Except Error Report := do
  let paths ← files d root language options
  return paths.foldl (Report.add d language paths.length) {}

/-- Keeps the language with more files, the earlier one of two that tie. -/
def better (best : Option (Language × Nat)) (language : Language) (count : Nat) :
    Option (Language × Nat) :=
  if 0 < count && best.all (fun (_, top) => top < count) then some (language, count) else best

/-- The language with the most files below a folder, if there is any file. -/
def detect (d : Disk) (root : String) (options : Options) : Except Error (Option Language) := do
  let best ← Language.all.foldlM (fun best language => do
    let paths ← files d root language options
    return better best language paths.length) none
  return best.map (·.1)

end Survey

end Lineage
