import Lineage.Browser.Screen
import Lineage.CommandLine.Run

/-!
# The program

Reads the folders that a run may look at, runs it and writes what it answers.  A session is shown
as text, and every line that is entered gives its keys.
-/

namespace Lineage

namespace Main

/-- Whether the content of a file matters: it is a source file, or holds settings or rules. -/
def matters (path : String) : Bool :=
  match Path.fileName? path with
  | none => false
  | some name =>
    ((Path.extensionOf? name).bind Language.ofExtension?).isSome ||
      [".ignore", ".gitignore", "exclude", "config.toml"].contains name

/-- Reads what is at a path.  Links, and what cannot be read, are passed over. -/
partial def readTree (path : String) : IO (Option Tree) := do
  let place := (← IO.currentDir) / path
  try
    match (← place.symlinkMetadata).type with
    | .file =>
      if matters path then return some (.file (← IO.FS.readBinFile place))
      else return some (.file ByteArray.empty)
    | .dir =>
      let entries ← (← place.readDir).toList.filterMapM (fun entry => do
        let tree ← readTree (Path.join path entry.fileName)
        return tree.map (fun tree => (entry.fileName, tree)))
      return some (.folder entries)
    | _ => return none
  catch _ => return none

/-- Adds what is at the end of `names` to a disk. -/
def addTree (d : Disk) (names : List String) : IO Disk := do
  match ← readTree (Disk.absolute names) with
  | none => return d
  | some tree => return { d with top := Tree.put tree names d.top }

/-- The disk as far as a run on `path` looks at it: what is there, and the rules above it. -/
def snapshot (path : String) : IO Disk := do
  let current := Path.namesFrom [] (← IO.currentDir).toString
  let names := Path.namesFrom current path
  let rules := [IgnoreLayer.ownFile, IgnoreLayer.sharedFile, IgnoreLayer.excludedFile]
  let above := (List.range names.length).flatMap (fun depth =>
    rules.map (fun file => names.take depth ++ file))
  let bare : Disk := ⟨Tree.put (.folder []) current (.folder []), current⟩
  addTree (← above.foldlM addTree bare) names

/-- The variables that settings look at. -/
def environment : IO Settings.Environment :=
  Settings.variableNames.filterMapM (fun name => do
    return (← IO.getEnv name).map (fun value => (name, value)))

/-- The size of the screen of a session. -/
def screenSize : Nat × Nat := (100, 30)

/-- The keys of a line that was entered; an empty line is the enter key. -/
def keysOf (line : String) : List Key :=
  match Text.dropReturn (line.toList.filter (· != '\n')) with
  | [] => [.enter]
  | keys => keys.map .char

/-- Writes the outline of a session to its file and notes how that went. -/
def save (folder : String) (s : Session) : IO Session := do
  let path := Export.target folder s.language
  try
    IO.FS.writeFile path (Census.report s.forest s.lines.toList s.census)
    return s.setStatus ("exported to " ++ path)
  catch _ => return s.setStatus ("export failed: failed to write " ++ path)

/-- Handles keys until one ends the session, which is told with the session. -/
def pressAll (d : Disk) (folder : String) : List Key → Session → IO (Session × Bool)
  | [], s => return (s, false)
  | key :: rest, s => do
    match s.press d key with
    | (s, .quit) => return (s, true)
    | (s, .save) => pressAll d folder rest (← save folder s)
    | (s, .stay) => pressAll d folder rest s

/-- Shows a session until it ends. -/
partial def browse (d : Disk) (folder : String) (s : Session) : IO Unit := do
  let (canvas, s) := Screen.draw d s screenSize.1 screenSize.2 Highlighter.plain
  canvas.texts.forM IO.println
  let line ← (← IO.getStdin).getLine
  if line.isEmpty then return
  let (s, ended) ← pressAll d folder (keysOf line) s
  if ended then return
  browse d folder s

end Main

end Lineage

open Lineage in
/-- Runs the program. -/
def main (arguments : List String) : IO UInt32 := do
  let d ← match CommandLine.parse arguments with
    | .ok request => Main.snapshot request.path
    | .error _ => pure ⟨.folder [], []⟩
  let outcome := CommandLine.run d (← Main.environment) arguments
  IO.print outcome.output
  IO.eprint outcome.errors
  match outcome.browse with
  | none => return outcome.code
  | some findings =>
    Main.browse d findings.exportFolder findings.session
    return outcome.code
