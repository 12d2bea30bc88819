import Lineage.Data.Decode
import Lineage.Data.Toml
import Lineage.Files.Survey

/-!
# Settings

Settings come from a file in the folder that is looked at, then from environment variables; what
neither gives has a default.  Values of the environment that cannot be read are ignored.
-/

namespace Lineage

/-- How classes are shown. -/
structure ViewSettings where
  /-- The rows of source text in a preview. -/
  previewHeight : Nat := 30
  /-- The columns of a line of source text in a preview. -/
  previewColumns : Nat := 120
  /-- The lines of the small outline among the details of a class. -/
  miniOutlineLines : Nat := 8
  /-- The characters of a path among the details of a class. -/
  pathCharacters : Nat := 48
  /-- The folder for exported outlines, if it is not the one that is looked at. -/
  exportFolder : Option String := none
  deriving DecidableEq, Repr, Inhabited

/-- All settings. -/
structure Settings where
  survey : Survey.Options := {}
  view : ViewSettings := {}
  deriving DecidableEq, Repr, Inhabited

/-- Why settings cannot be used. -/
inductive SettingsError where
  | unreadable (path : String) (cause : DiskError)
  | malformed (path : String)
  | invalid (field reason : String)
  deriving DecidableEq, Repr, Inhabited

namespace SettingsError

/-- The failure in words. -/
def message : SettingsError → String
  | unreadable path cause => "failed to read " ++ path ++ ": " ++ cause.message
  | malformed path => "invalid config " ++ path
  | invalid field reason => "invalid value for " ++ field ++ ": " ++ reason

/-- The failure behind this one, if it has one. -/
def cause? : SettingsError → Option String
  | unreadable _ cause => some cause.message
  | malformed _ | invalid _ _ => none

end SettingsError

namespace Settings

open Data

/-! ### Reading -/

/-- How strictly a list of field values is taken: whether it may be longer than the fields. -/
def checkLength (allowsMore : Bool) (items : List Data) (fields : Nat) :
    Except DecodeError Unit :=
  if !allowsMore && fields < items.length then
    .error (.wrongLength items.length "fewer elements in array")
  else .ok ()

/-- Reads the part about files. -/
def decodeSurvey (allowsMore : Bool) : Decoder Survey.Options
  | .record fields => do
    let excludes ← fieldWith fields "extra_excludes" decodeTexts
    let recursive ← fieldWith fields "recursive" decodeBool
    let respectIgnore ← fieldWith fields "respect_gitignore" decodeBool
    return ⟨recursive.getD true, respectIgnore.getD true, excludes.getD []⟩
  | .list items => do
    let recursive ← itemWith items 0 decodeBool
    let respectIgnore ← itemWith items 1 decodeBool
    let excludes ← itemWith items 2 decodeTexts
    checkLength allowsMore items 3
    return ⟨recursive.getD true, respectIgnore.getD true, excludes.getD []⟩
  | value => .error (.wrongType value.describe "struct ScanConfig")

/-- View settings from the fields that are given. -/
def viewOf (height columns outline path : Option Nat) (folder : Option (Option String)) :
    ViewSettings :=
  let fallback : ViewSettings := {}
  { previewHeight := height.getD fallback.previewHeight
    previewColumns := columns.getD fallback.previewColumns
    miniOutlineLines := outline.getD fallback.miniOutlineLines
    pathCharacters := path.getD fallback.pathCharacters
    exportFolder := folder.join }

/-- Reads the part about the view. -/
def decodeView (allowsMore : Bool) : Decoder ViewSettings
  | .record fields => do
    let folder ← fieldWith fields "export_dir" (decodeOption decodePath)
    let outline ← fieldWith fields "mini_tree_lines" decodeCount
    let path ← fieldWith fields "path_max_chars" decodeCount
    let height ← fieldWith fields "preview_height" decodeCount
    let columns ← fieldWith fields "preview_max_columns" decodeCount
    return viewOf height columns outline path folder
  | .list items => do
    let height ← itemWith items 0 decodeCount
    let columns ← itemWith items 1 decodeCount
    let outline ← itemWith items 2 decodeCount
    let path ← itemWith items 3 decodeCount
    let folder ← itemWith items 4 (decodeOption decodePath)
    checkLength allowsMore items 5
    return viewOf height columns outline path folder
  | value => .error (.wrongType value.describe "struct ViewConfig")

/-- Reads settings. -/
def decode (allowsMore : Bool) : Decoder Settings
  | .record fields => do
    let survey ← fieldWith fields "scan" (decodeSurvey allowsMore)
    let view ← fieldWith fields "view" (decodeView allowsMore)
    return ⟨survey.getD {}, view.getD {}⟩
  | .list items => do
    let survey ← itemWith items 0 (decodeSurvey allowsMore)
    let view ← itemWith items 1 (decodeView allowsMore)
    checkLength allowsMore items 2
    return ⟨survey.getD {}, view.getD {}⟩
  | value => .error (.wrongType value.describe "struct ClasstreeConfig")

/-! ### Writing -/

/-- Settings as a record. -/
def toData (s : Settings) : Data :=
  .record [
    ("scan", .record [
      ("recursive", .bool s.survey.recursive),
      ("respect_gitignore", .bool s.survey.respectIgnore),
      ("extra_excludes", .list (s.survey.excludes.map .text))]),
    ("view", .record (
      [("preview_height", .integer s.view.previewHeight),
       ("preview_max_columns", .integer s.view.previewColumns),
       ("mini_tree_lines", .integer s.view.miniOutlineLines),
       ("path_max_chars", .integer s.view.pathCharacters)] ++
      match s.view.exportFolder with
      | none => []
      | some folder => [("export_dir", .text folder)]))]

/-! ### Loading -/

/-- The variables of the environment. -/
abbrev Environment := List (String × String)

/-- The truth value that a variable holds. -/
def truthOf? (environment : Environment) (name : String) : Option Bool :=
  match environment.lookup name with
  | some "true" => some true
  | some "false" => some false
  | _ => none

/-- The count that a variable holds. -/
def countOf? (environment : Environment) (name : String) : Option Nat :=
  (environment.lookup name).bind (fun value => Number.read? (Nat.pow 2 64) value.toList)

/-- The variable for `Survey.Options.recursive`. -/
def recursiveVariable : String := "CLASSTREE_RECURSIVE"

/-- The variable for `ViewSettings.previewHeight`. -/
def heightVariable : String := "CLASSTREE_PREVIEW_HEIGHT"

/-- The variable for `ViewSettings.previewColumns`. -/
def columnsVariable : String := "CLASSTREE_PREVIEW_MAX_COLUMNS"

/-- The variable for `ViewSettings.miniOutlineLines`. -/
def outlineVariable : String := "CLASSTREE_MINI_TREE_LINES"

/-- The variables that are looked at. -/
def variableNames : List String :=
  [recursiveVariable, heightVariable, columnsVariable, outlineVariable]

/-- Settings with the values of the environment in place of their own. -/
def overriddenBy (s : Settings) (environment : Environment) : Settings :=
  { survey := { s.survey with
      recursive := (truthOf? environment recursiveVariable).getD s.survey.recursive }
    view := { s.view with
      previewHeight := (countOf? environment heightVariable).getD s.view.previewHeight
      previewColumns := (countOf? environment columnsVariable).getD s.view.previewColumns
      miniOutlineLines := (countOf? environment outlineVariable).getD s.view.miniOutlineLines } }

/-- The least number of columns of a preview. -/
def leastColumns : Nat := 8

/-- Refuses a preview without rows or with too few columns. -/
def validate (s : Settings) : Except SettingsError Unit :=
  if s.view.previewHeight == 0 then
    .error (.invalid "view.preview_height" "must be at least 1")
  else if s.view.previewColumns < leastColumns then
    .error (.invalid "view.preview_max_columns"
      (toString s.view.previewColumns ++ " is below the minimum of " ++ toString leastColumns))
  else .ok ()

/-- The path of the settings file of a folder. -/
def filePath (root : String) : String :=
  Path.join (Path.join root ".classtree") "config.toml"

/-- The settings of a file, or the defaults if there is none. -/
def ofFile (d : Disk) (path : String) : Except SettingsError Settings :=
  if !d.contains path then .ok {}
  else match d.readText path with
    | .error cause => .error (.unreadable path cause)
    | .ok document =>
      match Data.Toml.parse? document with
      | none => .error (.malformed path)
      | some data =>
        match decode true data with
        | .error _ => .error (.malformed path)
        | .ok settings => .ok settings

/-- The settings for a folder. -/
def load (d : Disk) (environment : Environment) (root : String) :
    Except SettingsError Settings := do
  let settings ← ofFile d (filePath root)
  let settings := settings.overriddenBy environment
  settings.validate
  return settings

/-- The folder that outlines are exported to. -/
def exportFolder (configured : Option String) (root : String) : String :=
  configured.getD root

end Settings

end Lineage
