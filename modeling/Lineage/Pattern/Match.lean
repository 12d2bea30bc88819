import Lineage.Pattern.Basic

/-!
# Matching patterns

A matcher reads a text from a cursor on and passes each place it can reach to what follows, in the
order of preference, until that succeeds.  Matching all of a text finds the leftmost match, then
the leftmost one after its end, and so on.
-/

namespace Lineage

/-- A place in a text: how many characters are before it, the last of them, and the characters
after it. -/
structure Cursor where
  position : Nat := 0
  before : Option Char := none
  rest : List Char
  deriving DecidableEq, Repr, Inhabited

namespace Cursor

/-- The cursor after the character `c`, with `rest` following. -/
def advance (c : Char) (rest : List Char) (cursor : Cursor) : Cursor :=
  ⟨cursor.position + 1, some c, rest⟩

/-- Whether a line starts here. -/
def atLineStart (cursor : Cursor) : Bool :=
  match cursor.before with
  | none => true
  | some c => c == '\n'

/-- Whether exactly one of the characters around this place is a word character. -/
def atWordEdge (cursor : Cursor) : Bool :=
  cursor.before.any Text.isWord != cursor.rest.head?.any Text.isWord

/-- The cursors after each start of the text in `set`, the longest first, on top of `found`. -/
def stops (set : Char → Bool) (position : Nat) (before : Option Char) :
    List Char → List Cursor → List Cursor
  | [], found => ⟨position, before, []⟩ :: found
  | c :: rest, found =>
    if set c then
      stops set (position + 1) (some c) rest (⟨position, before, c :: rest⟩ :: found)
    else ⟨position, before, c :: rest⟩ :: found

/-- The cursors that a run of characters of `set` can reach, the longest run first. -/
def runs (set : Char → Bool) (cursor : Cursor) : List Cursor :=
  stops set cursor.position cursor.before cursor.rest []

end Cursor

/-- A remembered part of a text. -/
structure Capture where
  start : Nat
  stop : Nat
  /-- The text from `start` on. -/
  source : List Char
  deriving DecidableEq, Repr, Inhabited

namespace Capture

/-- The characters of a part. -/
def chars (c : Capture) : List Char :=
  c.source.take (c.stop - c.start)

/-- The text of a part. -/
def text (c : Capture) : String :=
  String.ofList c.chars

end Capture

/-- The parts that have been remembered, the last one first. -/
abbrev Captures := List (Mark × Capture)

/-- A match of a pattern. -/
structure Match where
  start : Nat
  stop : Nat
  captures : Captures
  deriving DecidableEq, Repr, Inhabited

namespace Match

/-- The part remembered under a mark. -/
def get? (m : Match) (mark : Mark) : Option Capture :=
  m.captures.lookup mark

end Match

namespace Pattern

/-- The end of an attempt to match. -/
abbrev Outcome := Option (Cursor × Captures)

/-- What follows a pattern. -/
abbrev Continuation := Cursor → Captures → Outcome

/-- Repeats `step` as often as possible before going on, at most as often as `fuel` has characters.
A repetition that reads nothing is not tried. -/
def repeatStep (step : Cursor → Captures → Continuation → Outcome) :
    List Char → Cursor → Captures → Continuation → Outcome
  | [], cursor, captures, next => next cursor captures
  | _ :: fuel, cursor, captures, next =>
    let further := step cursor captures (fun cursor' captures' =>
      if cursor.position < cursor'.position then
        repeatStep step fuel cursor' captures' next
      else none)
    match further with
    | some outcome => some outcome
    | none => next cursor captures

/-- Matches a pattern at a cursor and goes on with `next`. -/
def attempt : Pattern → Cursor → Captures → Continuation → Outcome
  | empty, cursor, captures, next => next cursor captures
  | one set, cursor, captures, next =>
    match cursor.rest with
    | [] => none
    | c :: rest => if set c then next (cursor.advance c rest) captures else none
  | run set eager, cursor, captures, next =>
    let reached := cursor.runs set
    (if eager then reached else reached.reverse).findSome? (fun place => next place captures)
  | seq first second, cursor, captures, next =>
    first.attempt cursor captures (fun cursor' captures' =>
      second.attempt cursor' captures' next)
  | alt first second, cursor, captures, next =>
    match first.attempt cursor captures next with
    | some outcome => some outcome
    | none => second.attempt cursor captures next
  | many body, cursor, captures, next =>
    repeatStep body.attempt cursor.rest cursor captures next
  | marked mark body, cursor, captures, next =>
    body.attempt cursor captures (fun cursor' captures' =>
      next cursor' ((mark, ⟨cursor.position, cursor'.position, cursor.rest⟩) :: captures'))
  | lineStart, cursor, captures, next =>
    if cursor.atLineStart then next cursor captures else none
  | wordEdge, cursor, captures, next =>
    if cursor.atWordEdge then next cursor captures else none

/-- The preferred match that starts at a cursor. -/
def matchAt (p : Pattern) (cursor : Cursor) : Option Match :=
  (p.attempt cursor [] (fun cursor' captures => some (cursor', captures))).map
    (fun (cursor', captures) => ⟨cursor.position, cursor'.position, captures⟩)

/-- The matches that start at or after position `free`, from left to right and without overlap. -/
def scan (p : Pattern) (free position : Nat) (before : Option Char) : List Char → List Match
  | [] =>
    if free ≤ position then (p.matchAt ⟨position, before, []⟩).toList else []
  | c :: rest =>
    if position < free then scan p free (position + 1) (some c) rest
    else match p.matchAt ⟨position, before, c :: rest⟩ with
      | none => scan p free (position + 1) (some c) rest
      | some found => found :: scan p found.stop (position + 1) (some c) rest

/-- Every match of a pattern in a text: the leftmost one, the leftmost one after its end, and so
on. -/
def matchesIn (p : Pattern) (text : List Char) : List Match :=
  scan p 0 0 none text

/-- Whether a pattern matches anywhere in a text. -/
def occursIn (p : Pattern) (text : List Char) : Bool :=
  !(p.matchesIn text).isEmpty

end Pattern

end Lineage
