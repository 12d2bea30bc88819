import Lineage.Text.Blank
import Lineage.Text.Word

/-!
# Patterns

Patterns describe the shape of a declaration in a text.  They are matched from left to right with
backtracking, and where a text can be matched in several ways the pattern says which one is
preferred: the first alternative, the longest repetition for an eager one and the shortest for a
reluctant one.  Parts of the matched text are remembered under marks.
-/

namespace Lineage

/-- The parts of a declaration that a pattern can remember. -/
inductive Mark where
  | modifiers
  | name
  | bases
  | superclass
  | interfaces
  | opening
  | enumeration
  | final
  | result
  | indent
  deriving DecidableEq, Repr, Inhabited

/-- A pattern for text. -/
inductive Pattern where
  /-- The empty text. -/
  | empty
  /-- One character of a set. -/
  | one (set : Char → Bool)
  /-- Any number of characters of a set, as many as possible if `eager`. -/
  | run (set : Char → Bool) (eager : Bool)
  | seq (first second : Pattern)
  /-- One of two patterns, the first one preferred. -/
  | alt (first second : Pattern)
  /-- Any number of repetitions, as many as possible. -/
  | many (body : Pattern)
  /-- A pattern whose text is remembered. -/
  | marked (mark : Mark) (body : Pattern)
  /-- The start of a line. -/
  | lineStart
  /-- The place between a word character and another one, or none. -/
  | wordEdge
  deriving Inhabited

namespace Pattern

/-! ### Building patterns -/

/-- One pattern after another. -/
def sequence : List Pattern → Pattern
  | [] => empty
  | [p] => p
  | p :: more => seq p (sequence more)

/-- A given text. -/
def literal (text : String) : Pattern :=
  sequence (text.toList.map (fun c => one (· == c)))

/-- The first of several patterns that leads to a match. -/
def choice : List Pattern → Pattern
  | [] => one (fun _ => false)
  | [p] => p
  | p :: more => alt p (choice more)

/-- One of several texts. -/
def oneOf (texts : List String) : Pattern :=
  choice (texts.map literal)

/-- A pattern or nothing, the pattern preferred. -/
def optional (p : Pattern) : Pattern :=
  alt p empty

/-- At least one character of a set, as many as possible. -/
def some1 (set : Char → Bool) : Pattern :=
  seq (one set) (run set true)

/-- At least one character of a set, as few as possible. -/
def few1 (set : Char → Bool) : Pattern :=
  seq (one set) (run set false)

/-- Blanks, perhaps none. -/
def blanks : Pattern :=
  run Text.isBlank true

/-- At least one blank. -/
def blanks1 : Pattern :=
  some1 Text.isBlank

/-- Spaces and tabs, perhaps none. -/
def tabs : Pattern :=
  run (fun c => c == ' ' || c == '\t') true

/-- At least one space or tab. -/
def tabs1 : Pattern :=
  some1 (fun c => c == ' ' || c == '\t')

/-- A character that is none of the given ones. -/
def noneOf (characters : String) (c : Char) : Bool :=
  !characters.toList.contains c

/-- A character that is one of the given ones. -/
def anyOf (characters : String) (c : Char) : Bool :=
  characters.toList.contains c

/-- A name: a letter or underscore and further word characters. -/
def identifier : Pattern :=
  seq (one Text.isNameStart) (run Text.isWord true)

/-- Whether a pattern remembers anything under a mark. -/
def remembers (mark : Mark) : Pattern → Bool
  | seq p q | alt p q => p.remembers mark || q.remembers mark
  | many p => p.remembers mark
  | marked m p => m == mark || p.remembers mark
  | _ => false

end Pattern

end Lineage
