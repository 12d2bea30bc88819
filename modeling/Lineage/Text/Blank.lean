/-!
# Blanks, pieces, words and lines

Text is handled as a list of characters.  A blank is a character with the Unicode property
`White_Space`; words are the maximal runs without blanks, and lines end at a newline, with or
without a carriage return before it.
-/

namespace Lineage.Text

/-- The Unicode property `White_Space`. -/
def isBlank (c : Char) : Bool :=
  let n := c.toNat
  (9 ≤ n && n ≤ 13) || n == 0x20 || n == 0x85 || n == 0xA0 || n == 0x1680 ||
    (0x2000 ≤ n && n ≤ 0x200A) || n == 0x2028 || n == 0x2029 || n == 0x202F || n == 0x205F ||
    n == 0x3000

/-- `text` without the blanks at its start. -/
def trimStart (text : List Char) : List Char :=
  text.dropWhile isBlank

/-- `text` without the blanks at its end. -/
def trimEnd (text : List Char) : List Char :=
  (text.reverse.dropWhile isBlank).reverse

/-- `text` without the blanks at its two ends. -/
def trim (text : List Char) : List Char :=
  trimEnd (trimStart text)

/-- The pieces of `text` between the characters that satisfy `cut`.  There is one piece more than
there are such characters, so the list is never empty. -/
def pieces (cut : Char → Bool) (text : List Char) : List (List Char) :=
  text.foldr
    (fun c parts =>
      if cut c then [] :: parts
      else match parts with
        | [] => [[c]]
        | part :: more => (c :: part) :: more)
    [[]]

theorem pieces_ne_nil (cut : Char → Bool) (text : List Char) : pieces cut text ≠ [] := by
  unfold pieces
  induction text with
  | nil => simp
  | cons c rest ih =>
    simp only [List.foldr_cons]
    split
    · simp
    · split <;> simp

/-- The words of `text`: its maximal runs of characters that are not blank. -/
def words (text : List Char) : List (List Char) :=
  (pieces isBlank text).filter (fun part => !part.isEmpty)

/-- `line` without a carriage return at its end. -/
def dropReturn (line : List Char) : List Char :=
  match line.reverse with
  | '\r' :: rest => rest.reverse
  | _ => line

/-- The lines of `text`.  Each newline ends a line and takes a carriage return before it along;
what follows the last newline is a line of its own unless it is empty. -/
def lines (text : List Char) : List (List Char) :=
  let parts := pieces (· == '\n') text
  parts.dropLast.map dropReturn ++ (parts.getLast?.filter (fun part => !part.isEmpty)).toList

/-- Joins `parts`, writing `separator` between neighbours. -/
def join (separator : List Char) : List (List Char) → List Char
  | [] => []
  | [part] => part
  | part :: more => part ++ separator ++ join separator more

/-- Whether `text` contains `needle` as a run of neighbouring characters. -/
def contains (needle : List Char) : List Char → Bool
  | [] => needle.isEmpty
  | c :: rest => needle.isPrefixOf (c :: rest) || contains needle rest

/-! ### The same on strings -/

/-- `text` without the blanks at its two ends. -/
def trimString (text : String) : String :=
  String.ofList (trim text.toList)

/-- `text` with its ASCII capitals made small. -/
def asciiLower (text : String) : String :=
  String.ofList (text.toList.map Char.toLower)

end Lineage.Text
