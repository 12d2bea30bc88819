import Lineage.Files.Disk
import Lineage.Files.Glob

/-!
# Ignore files

A folder can hold files with rules that say which entries below it are to be left out.  The last
rule that applies decides, rules of a deeper folder come before those of the folders above, and an
`.ignore` file comes before a `.gitignore` file, which comes before an exclude file.
-/

namespace Lineage

/-- One rule of an ignore file. -/
structure IgnoreRule where
  pattern : Pattern
  /-- Whether the rule keeps what it matches. -/
  keeps : Bool
  /-- Whether the rule is for folders only. -/
  foldersOnly : Bool
  deriving Inhabited

namespace IgnoreRule

/-- Drops the blanks at the end of a line, unless the last one is escaped. -/
def trimLine (line : List Char) : List Char :=
  match line.reverse with
  | ' ' :: '\\' :: _ => line
  | _ => Text.trimEnd line

/-- The glob of a rule: a name without slashes is looked for in all folders, and two stars at the
end stand for what is inside, not for the folder itself. -/
def fullGlob (anchored : Bool) (glob : List Char) : List Char :=
  let floating := !anchored && !glob.contains '/' && glob != ['*', '*']
  let glob := if floating then ['*', '*', '/'] ++ glob else glob
  if ['*', '*', '/'].isPrefixOf glob.reverse then glob ++ ['/', '*'] else glob

/-- The rule of a line.  Comments, empty lines and lines that are no glob have none. -/
def ofLine? (line : List Char) : Option IgnoreRule :=
  if line.head? == some '#' then none
  else match trimLine line with
    | [] => none
    | text =>
      let (keeps, anchored, glob) := match text with
        | '\\' :: '!' :: rest => (false, false, '!' :: rest)
        | '\\' :: '#' :: rest => (false, false, '#' :: rest)
        | '!' :: '/' :: rest => (true, true, rest)
        | '!' :: rest => (true, false, rest)
        | '/' :: rest => (false, true, rest)
        | text => (false, false, text)
      let (foldersOnly, glob) := match glob.reverse with
        | '/' :: '\\' :: back => (true, back.reverse)
        | '/' :: back => (true, back.reverse)
        | _ => (false, glob)
      match Glob.parse true (String.ofList (fullGlob anchored glob)) with
      | .error _ => none
      | .ok tokens => some ⟨Glob.pattern true tokens, keeps, foldersOnly⟩

/-- What the last rule that applies to a path says: to keep it or to leave it out. -/
def verdict? (rules : List IgnoreRule) (path : String) (isFolder : Bool) : Option Bool :=
  (rules.reverse.find? (fun rule =>
    (!rule.foldersOnly || isFolder) && Glob.isMatch rule.pattern path)).map (·.keeps)

/-- The lines of an ignore file up to the first one that is no text; a mark of the byte order at
the start is dropped. -/
def linesOf (content : ByteArray) : List (List Char) :=
  let decoded := Text.decodeBytes [] content.toList
  let readable := decoded.takeWhile Option.isSome
  let parts := Text.lines (readable.filterMap id)
  let whole := if readable.length == decoded.length then parts
    else (Text.pieces (· == '\n') (readable.filterMap id)).dropLast.map Text.dropReturn
  match whole with
  | first :: rest => first.dropWhile (· == '\uFEFF') :: rest
  | [] => []

/-- The rules of a file, if a folder has it. -/
def ofFile (folder : Tree) (names : List String) : List IgnoreRule :=
  match folder.get? names with
  | some (.file content) => (linesOf content).filterMap ofLine?
  | _ => []

end IgnoreRule

/-- The rules of one folder, which is `depth` names below the top. -/
structure IgnoreLayer where
  depth : Nat
  own : List IgnoreRule
  shared : List IgnoreRule
  excluded : List IgnoreRule
  deriving Inhabited

namespace IgnoreLayer

/-- The file with the rules for every tool. -/
def ownFile : List String := [".ignore"]

/-- The file with the rules that come with a repository. -/
def sharedFile : List String := [".gitignore"]

/-- The file with the rules of one copy of a repository. -/
def excludedFile : List String := [".git", "info", "exclude"]

/-- The rules that a folder holds. -/
def ofFolder (depth : Nat) (folder : Tree) : IgnoreLayer where
  depth := depth
  own := IgnoreRule.ofFile folder ownFile
  shared := IgnoreRule.ofFile folder sharedFile
  excluded := IgnoreRule.ofFile folder excludedFile

/-- What the rules of one kind say about the entry at the end of `names`, the deepest layer that
says anything first. -/
def verdictOf (kind : IgnoreLayer → List IgnoreRule) (layers : List IgnoreLayer)
    (names : List String) (isFolder : Bool) : Option Bool :=
  layers.findSome? (fun layer =>
    IgnoreRule.verdict? (kind layer) ("/".intercalate (names.drop layer.depth)) isFolder)

/-- What the rules of all layers say about the entry at the end of `names`. -/
def verdict? (layers : List IgnoreLayer) (names : List String) (isFolder : Bool) : Option Bool :=
  (verdictOf own layers names isFolder).or
    ((verdictOf shared layers names isFolder).or (verdictOf excluded layers names isFolder))

/-- The rules of the folders from the top down to the one at the end of `names`, the deepest
first. -/
def above (top : Tree) (names : List String) : List IgnoreLayer :=
  ((List.range (names.length + 1)).filterMap (fun depth =>
    (top.get? (names.take depth)).map (ofFolder depth))).reverse

end IgnoreLayer

end Lineage
