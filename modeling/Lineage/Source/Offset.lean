import Lineage.Source.Brace

/-!
# Byte offsets

Places in a text can be given by the number of bytes of its UTF-8 form before them.  A place has
to be inside the text, and to look at the text before it, it must not lie inside a character.
-/

namespace Lineage.Source

/-- The number of bytes of a text. -/
def byteLength (text : List Char) : Nat :=
  text.foldr (fun c length => c.utf8Size + length) 0

/-- The text before a byte offset, if the offset is in the text and not inside a character. -/
def before? : Nat → List Char → Option (List Char)
  | 0, _ => some []
  | _, [] => none
  | offset, c :: rest =>
    if offset < c.utf8Size then none
    else (before? (offset - c.utf8Size) rest).map (c :: ·)

/-- Whether a byte offset lies in a comment. -/
def inCommentAt? (text : List Char) (offset : Nat) : Option Bool :=
  (before? offset text).map inComment

/-- The number of braces that are open at a byte offset. -/
def balanceAt? (text : List Char) (offset : Nat) : Option Int :=
  (before? offset text).map balance

/-- The text from the first character on that starts at or after a byte offset. -/
def fromOffset : Nat → List Char → List Char
  | 0, text => text
  | _, [] => []
  | offset, c :: rest => fromOffset (offset - c.utf8Size) rest

/-- The byte offset after the block that opens at a byte offset, which may lie inside a
character. -/
def blockEndAt? (text : List Char) (offset : Nat) : Option Nat :=
  let total := byteLength text
  if total < offset then none
  else
    let rest := fromOffset offset text
    let start := total - byteLength rest
    some (start + byteLength (rest.take (blockLength rest)))

end Lineage.Source
