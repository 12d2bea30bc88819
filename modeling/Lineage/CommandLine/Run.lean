import Lineage.Browser.Export
import Lineage.Browser.Session
import Lineage.CommandLine.Arguments
import Lineage.Declaration.Codec

/-!
# Runs

A run surveys a folder and shows its classes.  All of it is a function of the arguments, the
environment and the disk; only a browser needs more than one answer, so such a run returns the
session to start with.
-/

namespace Lineage

namespace CommandLine

/-- A failure and the ones behind it, the outermost first. -/
structure Failure where
  message : String
  causes : List String := []
  deriving DecidableEq, Repr, Inhabited

namespace Failure

/-- The failure seen from outside: a wider message in front. -/
def within (f : Failure) (message : String) : Failure :=
  ⟨message, f.message :: f.causes⟩

/-- Puts `margin` in front of every line of a text but the first. -/
def hang (margin text : String) : String :=
  ("\n" ++ margin).intercalate ((Text.pieces (· == '\n') text.toList).map String.ofList)

/-- Causes with their numbers, the first of which is `number`. -/
def numbered : Nat → List String → String
  | _, [] => ""
  | number, cause :: rest =>
    String.ofList (Number.padLeft 5 (Number.digits number)) ++ ": " ++ hang "       " cause ++
      "\n" ++ numbered (number + 1) rest

/-- The causes under each other; several are numbered. -/
def causeLines : List String → String
  | [] => ""
  | [cause] => "\nCaused by:\n    " ++ hang "    " cause ++ "\n"
  | causes => "\nCaused by:\n" ++ numbered 0 causes

/-- The failure as it is reported. -/
def report (f : Failure) : String :=
  "Error: " ++ f.message ++ "\n" ++ causeLines f.causes

end Failure

/-- The failure of a survey. -/
def ofSurvey (e : Survey.Error) : Failure :=
  ⟨e.message, e.cause?.toList⟩

/-- The failure to load settings. -/
def ofSettings (e : SettingsError) : Failure :=
  ⟨"failed to load classtree config", e.message :: e.cause?.toList⟩

/-! ### The survey of a run -/

/-- What the survey of a run has led to. -/
structure Findings where
  /-- The absolute path of the folder. -/
  root : String
  language : Language
  view : ViewSettings
  report : Survey.Report
  deriving DecidableEq, Repr, Inhabited

/-- The language asked for, or the most common one. -/
def chooseLanguage (d : Disk) (root : String) (asked : Option String)
    (options : Survey.Options) : Except Failure Language :=
  match asked with
  | some name =>
    match Language.ofName? name with
    | some language => .ok language
    | none => .error ⟨"unknown language '" ++ name ++ "' (expected one of: " ++
        ", ".intercalate (Language.all.map (·.name)) ++ ")", []⟩
  | none => do
    match ← (Survey.detect d root options).mapError ofSurvey with
    | some language => return language
    | none => throw ⟨"no supported source files under " ++ root ++
        "; pass --lang to choose a language", []⟩

/-- Surveys the folder of a request. -/
def survey (d : Disk) (environment : Settings.Environment) (r : Request) :
    Except Failure Findings := do
  let names ← (d.resolve r.path).mapError (fun e => ⟨"cannot open " ++ r.path, [e.message]⟩)
  let root := Disk.absolute names
  let settings ← (Settings.load d environment root).mapError ofSettings
  let options := { settings.survey with
    recursive := settings.survey.recursive && r.recursive
    excludes := settings.survey.excludes ++ r.excludes }
  let language ← chooseLanguage d root r.language options
  let report ← (Survey.run d root language options).mapError (fun e =>
    (ofSurvey e).within ("failed to scan " ++ root))
  return { root, language, view := settings.view, report }

namespace Findings

/-- The note on files that could not be read. -/
def warning (f : Findings) : String :=
  if f.report.failures.isEmpty then ""
  else "warning: " ++ toString f.report.failures.length ++ " files could not be read\n"

/-- The forest of the classes found. -/
def forest (f : Findings) : Forest :=
  Forest.build f.report.declarations

/-- The session that browses the classes found. -/
def session (f : Findings) : Session :=
  Session.start f.root f.language f.forest f.view

/-- The folder that a session exports to. -/
def exportFolder (f : Findings) : String :=
  Settings.exportFolder f.view.exportFolder f.root

/-- The outline with the census. -/
def outlineText (f : Findings) : String :=
  Census.report f.forest (Outline.lines f.forest) (Census.ofForest f.forest)

/-- The classes as data. -/
def listingText (f : Findings) : String :=
  Declaration.listing f.forest.declarations ++ "\n"

end Findings

/-! ### Outcomes -/

/-- What a run writes, and its exit code. -/
structure Outcome where
  code : UInt32 := 0
  output : String := ""
  errors : String := ""
  /-- What to browse after writing, if the run does not end there. -/
  browse : Option Findings := none
  deriving Inhabited

/-- The name and the version of the program. -/
def versionText : String :=
  "classtree 0.3.1\n"

/-- How the program is called. -/
def usageText : String :=
  "Usage: classtree [OPTIONS] <PATH>\n"

/-- What the program does and how it is called. -/
def helpText : String :=
  "Browse the class inheritance forest of a source tree\n\n" ++ usageText ++
  "\nArguments:\n" ++
  "  <PATH>  Directory to scan\n" ++
  "\nOptions:\n" ++
  "  -l, --lang <LANG>        Source language: csharp, java, cpp or python " ++
  "(auto-detected if not specified)\n" ++
  "      --no-recursive       Only scan files directly inside PATH\n" ++
  "      --exclude <EXCLUDE>  Glob patterns to exclude, relative to PATH (repeatable)\n" ++
  "      --print              Print the tree and a summary instead of opening the navigator\n" ++
  "      --json               Print the extracted classes as JSON\n" ++
  "  -h, --help               Print help\n" ++
  "  -V, --version            Print version\n"

/-- The outcome of arguments that do not lead to a run. -/
def Stop.outcome : Stop → Outcome
  | .help => { output := helpText }
  | .version => { output := versionText }
  | .wrong e =>
    { code := 2
      errors := e.message ++ (if e = .missingPath then "\n  <PATH>" else "") ++
        "\n\n" ++ usageText ++ "\nFor more information, try '--help'.\n" }

/-- Shows what a survey has found. -/
def present (display : Display) (f : Findings) : Outcome :=
  if f.report.isEmpty then { output := "nothing to display\n", errors := f.warning }
  else match display with
    | .listing => { output := f.listingText, errors := f.warning }
    | .report => { output := f.outlineText, errors := f.warning }
    | .browser => { errors := f.warning, browse := some f }

/-- Runs the program on its arguments. -/
def run (d : Disk) (environment : Settings.Environment) (arguments : List String) : Outcome :=
  match parse arguments with
  | .error stop => stop.outcome
  | .ok request =>
    match survey d environment request with
    | .error failure => { code := 1, errors := failure.report }
    | .ok findings => present request.display findings

end CommandLine

end Lineage
