import Lineage.Pattern.Match
import Lineage.Text.Utf8

/-!
# Globs

A glob describes paths: `?` is one byte, `*` any bytes, `[..]` one byte of a class, `{a,b}` one of
several globs, and `**` between slashes any folders.  A backslash takes the special meaning from
what follows.  Globs are matched against the bytes of a whole path.
-/

namespace Lineage

/-- A part of a glob. -/
inductive GlobToken where
  | literal (c : Char)
  /-- One byte. -/
  | any
  /-- Any bytes. -/
  | anyRun
  /-- Any folders before the rest. -/
  | foldersBefore
  /-- Everything below. -/
  | everythingBelow
  /-- Any folders between two parts, perhaps none. -/
  | foldersBetween
  | oneOf (negated : Bool) (ranges : List (Char × Char))
  | group (branches : List (List GlobToken))
  deriving Inhabited

/-- Why a text is no glob. -/
inductive GlobError where
  | unclosedClass
  | invalidRange (low high : Char)
  | unopenedGroup
  | unclosedGroup
  | danglingEscape
  deriving DecidableEq, Repr, Inhabited

namespace GlobError

/-- The reason in words. -/
def reason : GlobError → String
  | unclosedClass => "unclosed character class; missing ']'"
  | invalidRange low high =>
    "invalid range; '" ++ low.toString ++ "' > '" ++ high.toString ++ "'"
  | unopenedGroup =>
    "unopened alternate group; missing '\x7b' (maybe escape '\x7d' with '[\x7d]'?)"
  | unclosedGroup =>
    "unclosed alternate group; missing '\x7d' (maybe escape '\x7b' with '[\x7b]'?)"
  | danglingEscape => "dangling '\\'"

/-- The reason together with the text it is about. -/
def message (glob : String) (e : GlobError) : String :=
  "error parsing glob '" ++ glob ++ "': " ++ e.reason

end GlobError

namespace Glob

/-! ### Reading -/

/-- The characters of a class, while it is read. -/
structure ClassState where
  /-- The ranges so far, the last one first. -/
  ranges : List (Char × Char) := []
  isFirst : Bool := true
  /-- Whether a dash has just opened a range. -/
  inRange : Bool := false

namespace ClassState

/-- Adds a character that stands for itself, or the upper end of a range. -/
def add (s : ClassState) (c : Char) : Except GlobError ClassState :=
  match s.inRange, s.ranges with
  | true, (low, _) :: rest =>
    if c < low then .error (.invalidRange low c)
    else .ok ⟨(low, c) :: rest, false, false⟩
  | _, ranges => .ok ⟨(c, c) :: ranges, false, false⟩

/-- The ranges of a class whose end is reached; a dash left over stands for itself. -/
def finish (s : ClassState) : List (Char × Char) :=
  (if s.inRange then ('-', '-') :: s.ranges else s.ranges).reverse

end ClassState

/-- Reads a class up to its closing bracket, which stands for itself right at the start. -/
def readClass (s : ClassState) : List Char → Except GlobError (List (Char × Char) × List Char)
  | [] => .error .unclosedClass
  | c :: rest =>
    if c == ']' && !s.isFirst then .ok (s.finish, rest)
    else if c == '-' && !s.isFirst && !s.inRange then
      readClass { s with isFirst := false, inRange := true } rest
    else match s.add c with
      | .error e => .error e
      | .ok s => readClass s rest

/-- A group that is still open: the tokens before it and its finished branches, each list with the
last one first. -/
structure OpenGroup where
  outside : List GlobToken
  branches : List (List GlobToken)
  deriving Inhabited

/-- What has been read of a glob. -/
structure ReadState where
  /-- The tokens of the current branch, the last one first. -/
  tokens : List GlobToken := []
  /-- The groups around it, the innermost first. -/
  groups : List OpenGroup := []
  /-- The last character read. -/
  last : Option Char := none
  /-- Whether a bracket without its partner was met, after which brackets stand for themselves. -/
  literalBrackets : Bool := false
  deriving Inhabited

namespace ReadState

/-- Adds a token. -/
def push (s : ReadState) (token : GlobToken) : ReadState :=
  { s with tokens := token :: s.tokens }

/-- Adds two stars that have no meaning as a pair. -/
def pushStars (s : ReadState) : ReadState :=
  (s.push .anyRun).push .anyRun

/-- Replaces the slash before two stars by a wildcard for folders, unless there is one already. -/
def replaceSlash (s : ReadState) (token : GlobToken) : ReadState :=
  match s.tokens with
  | .foldersBefore :: _ => s
  | .everythingBelow :: _ => s
  | _ :: tokens => { s with tokens := token :: tokens }
  | [] => s.push token

/-- Reads what follows two stars; `before` is the character before them. -/
def doubleStar (s : ReadState) (before : Option Char) (rest : List Char) :
    ReadState × List Char :=
  if s.tokens.isEmpty then
    match rest with
    | [] => (s.push .foldersBefore, [])
    | '/' :: rest => ({ s.push .foldersBefore with last := some '/' }, rest)
    | rest => (s.pushStars, rest)
  else if before != some '/' &&
      (s.groups.isEmpty || (before != some ',' && before != some '{')) then
    (s.pushStars, rest)
  else
    match rest with
    | [] => (s.replaceSlash .everythingBelow, [])
    | '/' :: rest => ({ s.replaceSlash .foldersBetween with last := some '/' }, rest)
    | c :: rest =>
      if (c == ',' || c == '}') && !s.groups.isEmpty then
        (s.replaceSlash .everythingBelow, c :: rest)
      else (s.pushStars, c :: rest)

/-- Opens a group. -/
def openGroup (s : ReadState) : ReadState :=
  { s with tokens := [], groups := ⟨s.tokens, []⟩ :: s.groups }

/-- Ends a branch of the innermost group; outside of groups a comma stands for itself. -/
def comma (s : ReadState) : ReadState :=
  match s.groups with
  | [] => s.push (.literal ',')
  | g :: groups =>
    { s with tokens := [], groups := { g with branches := s.tokens.reverse :: g.branches } :: groups }

/-- Closes the innermost group. -/
def closeGroup (s : ReadState) : Except GlobError ReadState :=
  match s.groups with
  | [] => .error .unopenedGroup
  | g :: groups =>
    .ok { s with
      tokens := .group (s.tokens.reverse :: g.branches).reverse :: g.outside, groups }

end ReadState

/-- Reads a glob; each step uses up at least one character, so as much fuel as there are
characters is enough.  If `lenient`, a bracket without its partner stands for itself. -/
def readTokens (lenient : Bool) : Nat → ReadState → List Char → Except GlobError ReadState
  | 0, s, _ => .ok s
  | _, s, [] => .ok s
  | fuel + 1, s, c :: rest =>
    let before := s.last
    let s := { s with last := some c }
    match c with
    | '?' => readTokens lenient fuel (s.push .any) rest
    | '*' =>
      match rest with
      | '*' :: rest =>
        let (s, rest) := ReadState.doubleStar { s with last := some '*' } before rest
        readTokens lenient fuel s rest
      | rest => readTokens lenient fuel (s.push .anyRun) rest
    | '[' =>
      if s.literalBrackets then readTokens lenient fuel (s.push (.literal '[')) rest
      else
        let (negated, body) := match rest with
          | '!' :: body => (true, body)
          | '^' :: body => (true, body)
          | body => (false, body)
        match readClass {} body with
        | .ok (ranges, rest) =>
          readTokens lenient fuel { s.push (.oneOf negated ranges) with last := some ']' } rest
        | .error .unclosedClass =>
          if lenient then
            readTokens lenient fuel { s.push (.literal '[') with literalBrackets := true } rest
          else .error .unclosedClass
        | .error e => .error e
    | '{' => readTokens lenient fuel s.openGroup rest
    | '}' =>
      match s.closeGroup with
      | .ok s => readTokens lenient fuel s rest
      | .error e => .error e
    | ',' => readTokens lenient fuel s.comma rest
    | '\\' =>
      match rest with
      | [] => .error .danglingEscape
      | c :: rest => readTokens lenient fuel { s.push (.literal c) with last := some c } rest
    | c => readTokens lenient fuel (s.push (.literal c)) rest

/-- The tokens of a glob. -/
def parse (lenient : Bool) (glob : String) : Except GlobError (List GlobToken) := do
  let chars := glob.toList
  let s ← readTokens lenient chars.length {} chars
  if s.groups.isEmpty then return s.tokens.reverse else throw .unclosedGroup

/-! ### Matching -/

open Pattern

/-- A byte that a wildcard stands for; with `folders` it stops at slashes. -/
def wildByte (folders : Bool) (c : Char) : Bool :=
  !folders || c != '/'

/-- The bytes of a class.  A range between longer characters reaches from the last byte of the one
to the first byte of the other. -/
def classBytes (ranges : List (Char × Char)) (c : Char) : Bool :=
  ranges.any fun (low, high) =>
    let lows := Text.byteView low.toString
    if low == high then lows.contains c
    else
      let highs := Text.byteView high.toString
      lows.dropLast.contains c || (highs.drop 1).contains c ||
        match lows.getLast?, highs.head? with
        | some a, some b => a ≤ c && c ≤ b
        | _, _ => false

mutual

/-- The pattern of one token. -/
def tokenPattern (folders : Bool) : GlobToken → Pattern
  | .literal c => sequence ((Text.byteView c.toString).map (fun b => one (· == b)))
  | .any => one (wildByte folders)
  | .anyRun => run (wildByte folders) true
  | .foldersBefore =>
    alt (optional (literal "/")) (seq (run (fun _ => true) true) (literal "/"))
  | .everythingBelow => seq (literal "/") (run (fun _ => true) true)
  | .foldersBetween =>
    alt (literal "/") (sequence [literal "/", run (fun _ => true) true, literal "/"])
  | .oneOf negated ranges => one (fun c => classBytes ranges c != negated)
  | .group branches =>
    match branchPatterns folders branches with
    | [] => empty
    | patterns => choice patterns

/-- The pattern of tokens one after another. -/
def tokensPattern (folders : Bool) : List GlobToken → Pattern
  | [] => empty
  | token :: rest => seq (tokenPattern folders token) (tokensPattern folders rest)

/-- The patterns of the branches of a group; branches that are empty, or hold only empty groups,
are dropped. -/
def branchPatterns (folders : Bool) : List (List GlobToken) → List Pattern
  | [] => []
  | branch :: rest =>
    if isVoid branch then branchPatterns folders rest
    else tokensPattern folders branch :: branchPatterns folders rest

/-- Whether tokens stand for nothing at all. -/
def isVoid : List GlobToken → Bool
  | [] => true
  | .group branches :: rest => allVoid branches && isVoid rest
  | _ :: _ => false

/-- Whether all branches stand for nothing. -/
def allVoid : List (List GlobToken) → Bool
  | [] => true
  | branch :: rest => isVoid branch && allVoid rest

end

/-- The pattern of a glob; with `folders` its single wildcards stop at slashes.  Two stars alone
stand for everything. -/
def pattern (folders : Bool) (tokens : List GlobToken) : Pattern :=
  match tokens with
  | [.foldersBefore] => run (fun _ => true) true
  | tokens => tokensPattern folders tokens

/-- Whether a pattern matches the whole of a path. -/
def isMatch (p : Pattern) (path : String) : Bool :=
  (p.attempt ⟨0, none, Text.byteView path⟩ [] (fun cursor captures =>
    if cursor.rest.isEmpty then some (cursor, captures) else none)).isSome

end Glob

end Lineage
