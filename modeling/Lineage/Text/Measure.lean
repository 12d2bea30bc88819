import Lineage.Text.Emoji
import Lineage.Text.Width

/-!
# Columns of a text

A text is measured from its last character to the first one, because what follows a character
decides about its width: selectors change its look, joiners and skin tones make one pictograph of
several, and some scripts make one glyph of two letters.  `Follower` is what the text after a
character offers it, and `measure` gives the columns that the character adds.

In a text a control character takes one column, and a line feed none together with the return
before it.
-/

namespace Lineage.Text

/-! ### Letters that join the letter before them -/

/-- The letters that become one glyph with the letter before them, and what comes between. -/
inductive Ligature where
  /-- An Arabic alef, after a lam. -/
  | alef
  /-- A Hebrew lamed, after an alef and a joiner. -/
  | lamed
  | joinedLamed
  /-- A Buginese ya, after a joiner, the vowel i and the letter a. -/
  | ya
  | joinedYa
  | vowelYa
  /-- A Tifinagh consonant, after another one with a joiner of any kind between them. -/
  | consonant
  | joinedConsonant
  | boundConsonant
  /-- A Lisu tone letter, after another one. -/
  | tone
  /-- The Old Turkic i, after a joiner and the letter oq. -/
  | orkhon
  | joinedOrkhon
  /-- A Khmer letter that is written below the one before it, after the sign coeng. -/
  | subscript
  deriving DecidableEq, Repr, Inhabited

namespace Ligature

/-- The ligature after a joiner. -/
def joined : Ligature → Ligature
  | lamed => joinedLamed
  | ya => joinedYa
  | consonant => joinedConsonant
  | orkhon => joinedOrkhon
  | other => other

/-- Whether `n` is an Arabic alef. -/
def isAlef (n : Nat) : Bool :=
  inSpans [0x622, 0x624, 0x625, 0x626, 0x627, 0x628, 0x671, 0x674, 0x675, 0x676, 0x773, 0x775,
    0x870, 0x883] n

/-- Whether `n` is an Arabic lam. -/
def isLam (n : Nat) : Bool :=
  inSpans [0x644, 0x645, 0x6B5, 0x6B9, 0x76A, 0x76B, 0x8A6, 0x8A7, 0x8C7, 0x8C8] n

/-- Whether `n` is a Tifinagh consonant. -/
def isConsonant (n : Nat) : Bool :=
  inSpans [0x2D31, 0x2D66, 0x2D6F, 0x2D70] n

/-- Whether `n` is a Khmer letter that has a form below the line. -/
def isSubscript (n : Nat) : Bool :=
  inSpans [0x1780, 0x1783, 0x1784, 0x1788, 0x1789, 0x178D, 0x178E, 0x1794, 0x1795, 0x1799, 0x179B,
    0x179E, 0x17A0, 0x17A1, 0x17A2, 0x17A3, 0x17A7, 0x17A8, 0x17AB, 0x17AD, 0x17AF, 0x17B0] n

/-- The ligature that a character may end. -/
def ofChar? (c : Char) : Option Ligature :=
  let n := c.toNat
  if n == 0x5DC then some lamed
  else if isAlef n then some alef
  else if isSubscript n then some subscript
  else if n == 0x1A10 then some ya
  else if isConsonant n then some consonant
  else if n == 0xA4FC || n == 0xA4FD then some tone
  else if n == 0x10C03 then some orkhon
  else none

/-- The boundaries of the characters without width that part an alef from its lam. -/
def stopSpans : List Nat :=
  [0x605, 0x606, 0x890, 0x892, 0x8E2, 0x8E3, 0x9BE, 0x9BF, 0x9D7, 0x9D8, 0xB3E, 0xB3F, 0xB57, 0xB58,
   0xBBE, 0xBBF, 0xBD7, 0xBD8, 0xCC0, 0xCC1, 0xCC2, 0xCC3, 0xCC7, 0xCC9, 0xCCA, 0xCCC, 0xCD5, 0xCD7,
   0xD3E, 0xD3F, 0xD57, 0xD58, 0xDCF, 0xDD0, 0xDDF, 0xDE0, 0x1160, 0x1200, 0x180E, 0x180F, 0x1B35,
   0x1B36, 0x1B3B, 0x1B3C, 0x1B3D, 0x1B3E, 0x1B43, 0x1B44, 0x200C, 0x200E, 0x2065, 0x206A, 0x302E,
   0x3030, 0x3164, 0x3165, 0xA8FA, 0xA8FB, 0xD7B0, 0xD7C7, 0xD7CB, 0xD7FC, 0xFF9E, 0xFFA1, 0xFFF0,
   0xFFF9, 0x1133E, 0x1133F, 0x11357, 0x11358, 0x114B0, 0x114B1, 0x114BD, 0x114BE, 0x115AF, 0x115B0,
   0x11930, 0x11931, 0x1D165, 0x1D166, 0x1D16E, 0x1D173, 0xE0000, 0xE0001, 0xE0002, 0xE0020,
   0xE0080, 0xE0100, 0xE01F0, 0xE1000]

/-- Whether an alef joins a lam across `c`. -/
def isTransparent (c : Char) : Bool :=
  0xA0 < c.toNat && charWidth c == 0 && !inSpans stopSpans c.toNat

/-- Whether the other letters join across `c`. -/
def isInvisible (c : Char) : Bool :=
  inSpans [0x34F, 0x350, 0x17B4, 0x17B6, 0x180B, 0x180E, 0x180F, 0x1810, 0x200D, 0x200E, 0xFE00,
    0xFE10, 0xE0100, 0xE01F0] c.toNat

/-- The columns that `c` adds before a ligature and the ligature that is left of it, if `c` takes
part in the ligature. -/
def absorb? (c : Char) : Ligature → Option (Int × Option Ligature)
  | alef =>
    if isLam c.toNat then some (0, none)
    else if isTransparent c then some (0, some alef)
    else none
  | ligature =>
    let n := c.toNat
    if c == joiner then some (0, some ligature.joined)
    else if isInvisible c then some (0, some ligature)
    else match ligature with
      | joinedLamed => if n == 0x5D0 then some (0, none) else none
      | joinedYa => if n == 0x1A17 then some (0, some vowelYa) else none
      | vowelYa => if n == 0x1A15 then some (0, none) else none
      | consonant => if n == 0x2D7F then some (1, some boundConsonant) else none
      | joinedConsonant =>
        if n == 0x2D7F then some (1, some boundConsonant)
        else if isConsonant n then some (0, none)
        else none
      | boundConsonant => if isConsonant n then some (-1, none) else none
      | tone => if 0xA4F8 ≤ n && n ≤ 0xA4FB then some (0, none) else none
      | joinedOrkhon => if n == 0x10C32 then some (0, none) else none
      | subscript => if n == 0x17D2 then some (-1, none) else none
      | _ => none

end Ligature

/-! ### Pictographs that join the pictograph before them -/

/-- What a text offers to the character before it. -/
inductive Follower where
  | plain
  | lineFeed
  | pictograph
  | skinTone
  /-- One regional indicator. -/
  | indicator
  /-- Several regional indicators. -/
  | indicators
  /-- A joiner before a pictograph. -/
  | joined
  /-- A key cap before a joiner and a pictograph. -/
  | joinedKey
  /-- Regional indicators before a joiner and a pictograph: one, an even number, or more. -/
  | joinedOne
  | joinedEven
  | joinedOdd
  /-- The end of the name of a flag before a joiner and a pictograph: so many letters at its start,
  or so many digits. -/
  | joinedLetters (count : Nat)
  | joinedDigits (count : Nat)
  | letter (ligature : Ligature)
  deriving DecidableEq, Repr, Inhabited

namespace Follower

/-- What a character offers that takes nothing from the text after it. -/
def ofChar (c : Char) : Follower :=
  match Ligature.ofChar? c with
  | some ligature => .letter ligature
  | none =>
    if isIndicator c then .indicator
    else if isSkinTone c then .skinTone
    else if isPictograph c then .pictograph
    else .plain

/-- What is left of an offer after a selector that the character before it does not take. -/
def declined : Follower → Follower
  | .letter ligature => .letter ligature
  | _ => .plain

/-- Whether an offer outlasts the emoji selector. -/
def outlasts : Follower → Bool
  | .joined | .joinedKey | .letter _ => true
  | _ => false

/-- Whether `n` is a letter in the name of a flag. -/
def isTagLetter (n : Nat) : Bool :=
  0xE0061 ≤ n && n ≤ 0xE007A

/-- Whether `n` is a digit in the name of a flag. -/
def isTagDigit (n : Nat) : Bool :=
  0xE0030 ≤ n && n ≤ 0xE0039

/-- The columns that `c` adds and what it offers in turn, if `c` takes the offer. -/
def accept? (c : Char) : Follower → Option (Int × Follower)
  | letter ligature =>
    (ligature.absorb? c).map (fun (columns, left) =>
      (columns, (left.map Follower.letter).getD plain))
  | pictograph => if c == joiner then some (0, joined) else none
  | skinTone =>
    if isTintable c then some (0, pictograph)
    else if c == joiner then some (0, joined)
    else none
  | indicator => if isIndicator c then some (1, indicators) else none
  | indicators =>
    if isIndicator c then some (1, indicators)
    else if c == joiner then some (0, joined)
    else none
  | joined =>
    if c.toNat == 0x20E3 then some (0, joinedKey)
    else if isIndicator c then some (1, joinedOne)
    else if isSkinTone c then some (0, skinTone)
    else if c.toNat == 0xE007F then some (0, joinedLetters 0)
    else if isPictograph c then some (0, pictograph)
    else none
  | joinedOne => if isIndicator c then some (-1, joinedEven) else none
  | joinedEven =>
    if isIndicator c then some (3, joinedOdd)
    else if c == joiner then some (0, joined)
    else none
  | joinedOdd =>
    if isIndicator c then some (-1, joinedEven)
    else if c == joiner then some (0, joined)
    else none
  | joinedLetters count =>
    if isTagLetter c.toNat && count < 6 then some (0, joinedLetters (count + 1))
    else if isTagDigit c.toNat && count < 5 then some (0, joinedDigits 1)
    else if c.toNat == 0x1F3F4 && 2 < count then some (0, pictograph)
    else none
  | joinedDigits count =>
    if isTagDigit c.toNat && count < 3 then some (0, joinedDigits (count + 1))
    else if c.toNat == 0x1F3F4 && count == 3 then some (0, pictograph)
    else none
  | _ => none

end Follower

/-! ### Measuring -/

/-- What a selector asks of the character before it. -/
inductive Look where
  | emoji
  | letter
  deriving DecidableEq, Repr, Inhabited

/-- The text after a character: what it offers, and the look that it asks for. -/
structure Following where
  follower : Follower := .plain
  look : Option Look := none
  deriving DecidableEq, Repr, Inhabited

/-- The columns of a character up to the no-break space, and what it offers. -/
def measureBasic (c : Char) (next : Follower) : Int × Follower :=
  if c == '\n' then (0, .lineFeed)
  else if c == '\r' && next == .lineFeed then (0, .plain)
  else (1, .plain)

/-- The columns that a character adds to the text after it, and what both offer. -/
def measure (c : Char) (next : Following) : Int × Following :=
  if next.look == some .emoji && takesEmojiLook c then
    let isJoined := next.follower == .joined || next.follower == .joinedKey
    (if isJoined then 0 else 2, ⟨.pictograph, none⟩)
  else
    let follower := if next.look == some .emoji then next.follower.declined else next.follower
    if c.toNat ≤ 0xA0 then
      let (columns, follower) := measureBasic c follower
      (columns, ⟨follower, none⟩)
    else if c == emojiSelector then
      (0, ⟨if follower.outlasts then follower else .plain, some .emoji⟩)
    else if c == textSelector then
      (0, ⟨follower.declined, some .letter⟩)
    else if next.look == some .letter && takesTextLook c then (1, {})
    else
      let (columns, follower) :=
        (follower.accept? c).getD ((charWidth c : Int), Follower.ofChar c)
      (columns, ⟨follower, none⟩)

/-- The columns of a text. -/
def width (text : List Char) : Nat :=
  (text.foldr
    (fun c (state : Int × Following) =>
      let (columns, next) := measure c state.2
      (columns + state.1, next))
    (0, {})).1.toNat

@[simp]
theorem width_nil : width [] = 0 := rfl

end Lineage.Text
