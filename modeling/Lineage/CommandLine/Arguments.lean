/-!
# Command line arguments

A run takes the path of a folder, switches and options.  A switch stands for itself.  An option
takes a value, which is the next argument or follows the option in the same one.  After `--` every
argument is a path, whatever it starts with.

An option whose value is still to come, and a path, are taken in only when the next switch, option
or path arrives or the arguments end, so a fault in them is reported after an unknown argument that
stands directly behind them.
-/

namespace Lineage

namespace CommandLine

/-- An argument that stands for itself. -/
inductive Switch where
  | noRecursive
  | print
  | json
  | help
  | version
  deriving DecidableEq, Repr, Inhabited

namespace Switch

/-- The word for a switch. -/
def word : Switch → String
  | noRecursive => "no-recursive"
  | print => "print"
  | json => "json"
  | help => "help"
  | version => "version"

/-- A switch as messages show it. -/
def label (s : Switch) : String :=
  "--" ++ s.word

/-- Every switch. -/
def all : List Switch :=
  [noRecursive, print, json, help, version]

/-- The switch with a word. -/
def ofWord? (word : String) : Option Switch :=
  all.find? (fun s => s.word == word)

/-- The switch with a letter. -/
def ofLetter? : Char → Option Switch
  | 'h' => some help
  | 'V' => some version
  | _ => none

end Switch

/-- An argument that has a value. -/
inductive Parameter where
  | path
  | language
  | exclude
  deriving DecidableEq, Repr, Inhabited

namespace Parameter

/-- A parameter as messages show it. -/
def label : Parameter → String
  | path => "<PATH>"
  | language => "--lang <LANG>"
  | exclude => "--exclude <EXCLUDE>"

/-- The option with a word. -/
def ofWord? : String → Option Parameter
  | "lang" => some language
  | "exclude" => some exclude
  | _ => none

/-- The option with a letter. -/
def ofLetter? : Char → Option Parameter
  | 'l' => some language
  | _ => none

end Parameter

/-- What is wrong with the arguments. -/
inductive UsageError where
  | unknown (argument : String)
  | missingValue (parameter : Parameter)
  | unexpectedValue (value : String) (switch : Switch)
  | repeated (label : String)
  | conflict (first second : Switch)
  | missingPath
  deriving DecidableEq, Repr, Inhabited

namespace UsageError

/-- The fault in words. -/
def message : UsageError → String
  | unknown argument => "error: unexpected argument '" ++ argument ++ "' found"
  | missingValue parameter =>
    "error: a value is required for '" ++ parameter.label ++ "' but none was supplied"
  | unexpectedValue value switch =>
    "error: unexpected value '" ++ value ++ "' for '" ++ switch.label ++
      "' found; no more were expected"
  | repeated label => "error: the argument '" ++ label ++ "' cannot be used multiple times"
  | conflict first second =>
    "error: the argument '" ++ first.label ++ "' cannot be used with '" ++ second.label ++ "'"
  | missingPath => "error: the following required arguments were not provided:"

end UsageError

/-- Why arguments do not lead to a run. -/
inductive Stop where
  | help
  | version
  | wrong (error : UsageError)
  deriving DecidableEq, Repr, Inhabited

/-- What a run shows. -/
inductive Display where
  /-- The browser. -/
  | browser
  /-- The outline with the census. -/
  | report
  /-- The classes as data. -/
  | listing
  deriving DecidableEq, Repr, Inhabited

/-- What the arguments ask for. -/
structure Request where
  path : String
  language : Option String := none
  recursive : Bool := true
  excludes : List String := []
  display : Display := .browser
  deriving DecidableEq, Repr, Inhabited

/-! ### Reading arguments -/

/-- The arguments that have been read. -/
structure Draft where
  /-- The switches in the order given. -/
  switches : List Switch := []
  path : Option String := none
  language : Option String := none
  excludes : List String := []
  /-- The parameter that is still to be taken in, with its value if it has one yet. -/
  waiting : Option (Parameter × Option String) := none
  /-- Whether only paths follow. -/
  pathsOnly : Bool := false
  deriving DecidableEq, Repr, Inhabited

namespace Draft

/-- Takes in the value of a parameter. -/
def accept (d : Draft) (parameter : Parameter) (value : String) : Except Stop Draft :=
  match parameter with
  | .path =>
    if value.isEmpty then .error (.wrong (.missingValue .path))
    else .ok { d with path := some value }
  | .language =>
    if d.language.isSome then .error (.wrong (.repeated parameter.label))
    else .ok { d with language := some value }
  | .exclude => .ok { d with excludes := d.excludes ++ [value] }

/-- Takes in the parameter that is waiting. -/
def settle (d : Draft) : Except Stop Draft :=
  match d.waiting with
  | none => .ok d
  | some (parameter, none) => .error (.wrong (.missingValue parameter))
  | some (parameter, some value) => { d with waiting := none }.accept parameter value

/-- Takes in a switch. -/
def addSwitch (d : Draft) (switch : Switch) : Except Stop Draft := do
  let d ← d.settle
  match switch with
  | .help => throw .help
  | .version => throw .version
  | switch =>
    if d.switches.contains switch then throw (.wrong (.repeated switch.label))
    return { d with switches := d.switches ++ [switch] }

/-- Takes in an option, with its value if that stands in the same argument. -/
def addOption (d : Draft) (parameter : Parameter) (value : Option String) :
    Except Stop Draft := do
  let d ← d.settle
  match value with
  | none => return { d with waiting := some (parameter, none) }
  | some value => d.accept parameter value

/-- Takes in an argument that is no switch or option: the value of the option before it, or the
path. -/
def addValue (d : Draft) (value : String) : Except Stop Draft := do
  match d.waiting, d.pathsOnly with
  | some (parameter, none), false =>
    return { d with waiting := some (parameter, some value) }
  | waiting, _ =>
    if d.path.isSome || waiting.any (fun w => w.1 == .path) then
      throw (.wrong (.unknown value))
    let d ← d.settle
    return { d with waiting := some (.path, some value) }

/-- Takes in an argument that starts with two dashes, given without them. -/
def addWord (d : Draft) (argument : List Char) : Except Stop Draft :=
  let word := String.ofList (argument.takeWhile (· != '='))
  let value := match argument.dropWhile (· != '=') with
    | [] => none
    | _ :: value => some (String.ofList value)
  match Parameter.ofWord? word, Switch.ofWord? word, value with
  | some parameter, _, _ => d.addOption parameter value
  | none, some switch, none => d.addSwitch switch
  | none, some switch, some value => .error (.wrong (.unexpectedValue value switch))
  | none, none, _ => .error (.wrong (.unknown ("--" ++ word)))

/-- Takes in the letters of an argument that starts with one dash, given without it.  What follows
the letter of an option is its value. -/
def addLetters (d : Draft) : List Char → Except Stop Draft
  | [] => .ok d
  | letter :: rest =>
    match Parameter.ofLetter? letter, Switch.ofLetter? letter with
    | some parameter, _ =>
      d.addOption parameter (match rest with
        | [] => none
        | '=' :: value => some (String.ofList value)
        | value => some (String.ofList value))
    | none, some switch => do (← d.addSwitch switch).addLetters rest
    | none, none => .error (.wrong (.unknown (String.ofList ['-', letter])))

/-- Takes in an argument. -/
def add (d : Draft) (argument : String) : Except Stop Draft :=
  if d.pathsOnly then d.addValue argument
  else match argument.toList with
    | ['-', '-'] => .ok { d with pathsOnly := true }
    | '-' :: '-' :: word => d.addWord word
    | '-' :: letter :: letters => d.addLetters (letter :: letters)
    | _ => d.addValue argument

/-- What to show: the classes can be printed in one way only. -/
def display (d : Draft) : Except Stop Display :=
  match d.switches.filter (fun s => s == .print || s == .json) with
  | [] => .ok .browser
  | [.print] => .ok .report
  | [_] => .ok .listing
  | first :: second :: _ => .error (.wrong (.conflict first second))

/-- The request that is complete. -/
def finish (d : Draft) : Except Stop Request := do
  let d ← d.settle
  let display ← d.display
  match d.path with
  | none => throw (.wrong .missingPath)
  | some path =>
    return { path, language := d.language, recursive := !d.switches.contains .noRecursive
             excludes := d.excludes, display }

end Draft

/-- Reads the arguments of a run. -/
def parse (arguments : List String) : Except Stop Request := do
  (← arguments.foldlM Draft.add {}).finish

end CommandLine

end Lineage
