import Lineage.Files.Path
import Lineage.Text.Utf8

/-!
# Disks

A disk is a tree of folders and files with a current folder.  Paths are followed from the current
folder, or from the top if they are absolute, through folders that exist.
-/

namespace Lineage

/-- A file or a folder with its entries. -/
inductive Tree where
  | file (content : ByteArray)
  | folder (entries : List (String × Tree))
  deriving Inhabited

/-- Why a file cannot be used. -/
inductive DiskError where
  | notFound
  | notFolder
  | isFolder
  | notText
  deriving DecidableEq, Repr, Inhabited

namespace DiskError

/-- The reason in words. -/
def message : DiskError → String
  | notFound => "No such file or directory (os error 2)"
  | notFolder => "Not a directory (os error 20)"
  | isFolder => "Is a directory (os error 21)"
  | notText => "stream did not contain valid UTF-8"

end DiskError

namespace Tree

/-- Whether a tree is a folder. -/
def isFolder : Tree → Bool
  | folder _ => true
  | file _ => false

/-- The entries of a folder; a file has none. -/
def entries : Tree → List (String × Tree)
  | folder entries => entries
  | file _ => []

/-- The entry of a folder with the given name. -/
def child? (tree : Tree) (name : String) : Option Tree :=
  tree.entries.lookup name

/-- The tree at the end of a list of names. -/
def get? : Tree → List String → Option Tree
  | tree, [] => some tree
  | tree, name :: rest =>
    match tree.child? name with
    | none => none
    | some below => below.get? rest

/-- The entries with the one called `name` replaced, or added at the end. -/
def putEntry (name : String) (tree : Tree) : List (String × Tree) → List (String × Tree)
  | [] => [(name, tree)]
  | (other, old) :: rest =>
    if other == name then (name, tree) :: rest else (other, old) :: putEntry name tree rest

@[simp]
theorem lookup_putEntry (name : String) (tree : Tree) (entries : List (String × Tree)) :
    (putEntry name tree entries).lookup name = some tree := by
  induction entries with
  | nil => simp [putEntry]
  | cons entry rest ih =>
    obtain ⟨other, old⟩ := entry
    unfold putEntry
    split
    · simp
    · rename_i h
      have h' : (name == other) = false := by
        rw [Bool.eq_false_iff]
        intro hEq
        exact h (by simpa using (by simpa using hEq : name = other).symm)
      simp [List.lookup_cons, h', ih]

/-- Puts a tree at the end of a list of names, making the folders on the way. -/
def put (content : Tree) : List String → Tree → Tree
  | [], _ => content
  | name :: rest, tree =>
    folder (putEntry name (put content rest ((tree.child? name).getD (folder []))) tree.entries)

/-- What is put somewhere is found there. -/
@[simp]
theorem get?_put (content : Tree) (names : List String) (tree : Tree) :
    (put content names tree).get? names = some content := by
  induction names generalizing tree with
  | nil => rfl
  | cons name rest ih => simp [put, get?, child?, entries, ih]

/-- Removes what is at the end of a list of names. -/
def remove : List String → Tree → Tree
  | [], tree => tree
  | [name], tree => folder (tree.entries.filter (fun entry => entry.1 != name))
  | name :: rest, tree =>
    match tree.child? name with
    | none => tree
    | some below => folder (putEntry name (remove rest below) tree.entries)

end Tree

/-- A file system with a current folder, which is given by the names from the top to it. -/
structure Disk where
  top : Tree
  current : List String := []
  deriving Inhabited

namespace Disk

/-- The tree at the end of a list of names from the top. -/
def at? (d : Disk) (names : List String) : Option Tree :=
  d.top.get? names

/-- Follows components from the folder `names`; the names of the end are returned. -/
def follow (d : Disk) (names : List String) : List Component → Except DiskError (List String)
  | [] => .ok names
  | component :: rest =>
    match d.at? names with
    | none => .error .notFound
    | some (.file _) => .error .notFolder
    | some (.folder entries) =>
      match component with
      | .root | .here => d.follow names rest
      | .up => d.follow names.dropLast rest
      | .name text =>
        if (entries.lookup text).isSome then d.follow (names ++ [text]) rest
        else .error .notFound

/-- Whether a path can only name a folder because of its end. -/
def endsAsFolder (path : String) : Bool :=
  match path.toList.reverse with
  | '/' :: _ => true
  | ['.'] => true
  | '.' :: '/' :: _ => true
  | _ => false

/-- The names from the top to what a path names. -/
def resolve (d : Disk) (path : String) : Except DiskError (List String) := do
  if path.isEmpty then throw .notFound
  let start := if Path.isAbsolute path then [] else d.current
  let names ← d.follow start (Path.components path)
  match d.at? names with
  | none => throw .notFound
  | some tree => if endsAsFolder path && !tree.isFolder then throw .notFolder else return names

/-- What a path names. -/
def find (d : Disk) (path : String) : Except DiskError Tree := do
  let names ← d.resolve path
  match d.at? names with
  | none => throw .notFound
  | some tree => return tree

/-- The absolute path of names from the top. -/
def absolute (names : List String) : String :=
  "/" ++ "/".intercalate names

/-- Whether a path names anything. -/
def contains (d : Disk) (path : String) : Bool :=
  (d.find path).isOk

/-- The bytes of a file. -/
def read (d : Disk) (path : String) : Except DiskError ByteArray := do
  match ← d.find path with
  | .file content => return content
  | .folder _ => throw .isFolder

/-- The text of a file. -/
def readText (d : Disk) (path : String) : Except DiskError (List Char) := do
  match Text.decode? (← d.read path) with
  | none => throw .notText
  | some text => return text

/-- The size that is recorded for a folder. -/
def folderSize : Nat := 4096

/-- The size of a file or folder in bytes. -/
def size (d : Disk) (path : String) : Except DiskError Nat := do
  match ← d.find path with
  | .file content => return content.size
  | .folder _ => return folderSize

/-- Writes a file.  Its folder has to exist, and it must not be a folder itself. -/
def write (d : Disk) (path : String) (content : ByteArray) : Except DiskError Disk := do
  if path.isEmpty then throw .notFound
  let start := if Path.isAbsolute path then [] else d.current
  let components := Path.components path
  match components.getLast? with
  | some (.name text) =>
    let folder ← d.follow start components.dropLast
    match d.at? folder with
    | none => throw .notFound
    | some (.file _) => throw .notFolder
    | some (.folder entries) =>
      match entries.lookup text with
      | some (.folder _) => throw .isFolder
      | some (.file _) =>
        if endsAsFolder path then throw .notFolder
        return { d with top := Tree.put (.file content) (folder ++ [text]) d.top }
      | none =>
        if endsAsFolder path then throw .isFolder
        return { d with top := Tree.put (.file content) (folder ++ [text]) d.top }
  | _ => throw .isFolder

/-- Puts a file or folder at a path below the current folder, making the folders on the way. -/
def place (d : Disk) (path : String) (tree : Tree) : Disk :=
  let names := (Path.components path).filterMap fun
    | .name text => some text
    | _ => none
  { d with top := Tree.put tree (d.current ++ names) d.top }

/-- Removes what a path names, if it names anything. -/
def delete (d : Disk) (path : String) : Disk :=
  match d.resolve path with
  | .error _ => d
  | .ok names => { d with top := Tree.remove names d.top }

end Disk

end Lineage
