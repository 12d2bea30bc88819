import Lineage.Text.Blank

/-!
# Braces and comments

Two views of the text before a place: how many braces are open there, and whether it lies in a
comment.  Both look at raw characters; braces and comment marks in string literals count like any
others.
-/

namespace Lineage.Source

/-- The number of open braces after the character `c`. -/
def afterBrace (depth : Int) (c : Char) : Int :=
  if c == '{' then depth + 1 else if c == '}' then depth - 1 else depth

/-- The number of opening braces of `text` less the number of closing ones. -/
def balance (text : List Char) : Int :=
  text.foldl afterBrace 0

@[simp]
theorem balance_nil : balance [] = 0 := rfl

/-- A count that starts at `depth` ends `depth` higher. -/
theorem foldl_afterBrace (text : List Char) (depth : Int) :
    text.foldl afterBrace depth = depth + balance text := by
  unfold balance
  induction text generalizing depth with
  | nil => simp
  | cons c rest ih =>
    rw [List.foldl_cons, List.foldl_cons, ih (afterBrace depth c), ih (afterBrace 0 c)]
    unfold afterBrace
    split
    · omega
    · split <;> omega

/-- The balances of two texts add up. -/
theorem balance_append (text more : List Char) :
    balance (text ++ more) = balance text + balance more := by
  rw [balance, List.foldl_append, foldl_afterBrace]
  rfl

/-- Reads on to the brace that closes the block open at depth `depth` and returns the number of
characters read with it, counting from `read`.  A closing brace at depth zero closes too. -/
def closing? (depth read : Nat) : List Char → Option Nat
  | [] => none
  | c :: rest =>
    if c == '{' then closing? (depth + 1) (read + 1) rest
    else if c == '}' then
      if depth ≤ 1 then some (read + 1) else closing? (depth - 1) (read + 1) rest
    else closing? depth (read + 1) rest

/-- The length of the block at the start of `text`: up to its closing brace, or all of `text` if
it is not closed. -/
def blockLength (text : List Char) : Nat :=
  (closing? 0 0 text).getD text.length

/-- The place of the last occurrence of `a` followed by `b`, where `position` characters come
before the text and `found` is the last occurrence in them. -/
def lastPair (a b : Char) (position : Nat) (found : Option Nat) : List Char → Option Nat
  | c :: d :: rest =>
    lastPair a b (position + 1) (if c == a && d == b then some position else found) (d :: rest)
  | _ => found

/-- The last line of a text, which is empty if the text ends with a newline. -/
def lastLine (text : List Char) : List Char :=
  (text.reverse.takeWhile (· != '\n')).reverse

/-- Whether a place lies in a block comment, given the text before it: one has been started there
and no end follows its start. -/
def inBlockComment (before : List Char) : Bool :=
  match lastPair '/' '*' 0 none before, lastPair '*' '/' 0 none before with
  | some opened, some closed => closed < opened
  | some _, none => true
  | none, _ => false

/-- Whether a place lies in a comment, given the text before it: after two slashes on its line, or
in a block comment. -/
def inComment (before : List Char) : Bool :=
  Text.contains ['/', '/'] (lastLine before) || inBlockComment before

/-- The number of lines that `text` takes: one more than its newlines. -/
def lineSpan (text : List Char) : Nat :=
  text.count '\n' + 1

/-- The columns of the blanks at the start of a line; a tab counts as four. -/
def indentation (line : List Char) : Nat :=
  (line.takeWhile Text.isBlank).foldr (fun c width => (if c == '\t' then 4 else 1) + width) 0

end Lineage.Source
