/-!
# UTF-8

The characters that a list of bytes encodes.  Bytes that are not part of a character are cut into
the longest starts of characters, and each of these is one failure.
-/

namespace Lineage.Text

/-- Whether a byte continues a character. -/
def isContinuation (b : UInt8) : Bool :=
  0x80 ≤ b && b ≤ 0xBF

/-- The payload of a continuation byte. -/
def payload (b : UInt8) : Nat :=
  b.toNat % 0x40

/-- Whether `b` may follow the first byte `a` of a character of three or four bytes.  The ranges
leave out the longer forms of shorter characters, the surrogates and what lies beyond Unicode. -/
def isSecond (a b : UInt8) : Bool :=
  if a == 0xE0 then 0xA0 ≤ b && b ≤ 0xBF
  else if a == 0xED then 0x80 ≤ b && b ≤ 0x9F
  else if a == 0xF0 then 0x90 ≤ b && b ≤ 0xBF
  else if a == 0xF4 then 0x80 ≤ b && b ≤ 0x8F
  else isContinuation b

/-- Decodes bytes; `done` holds the characters and failures so far, the last one first. -/
def decodeBytes (done : List (Option Char)) : List UInt8 → List (Option Char)
  | [] => done.reverse
  | a :: rest =>
    if a < 0x80 then decodeBytes (some (Char.ofNat a.toNat) :: done) rest
    else if 0xC2 ≤ a && a ≤ 0xDF then
      match rest with
      | b :: rest' =>
        if isContinuation b then
          decodeBytes (some (Char.ofNat (a.toNat % 0x20 * 0x40 + payload b)) :: done) rest'
        else decodeBytes (none :: done) (b :: rest')
      | [] => (none :: done).reverse
    else if 0xE0 ≤ a && a ≤ 0xEF then
      match rest with
      | b :: rest' =>
        if isSecond a b then
          match rest' with
          | c :: rest'' =>
            if isContinuation c then
              let n := (a.toNat % 0x10 * 0x40 + payload b) * 0x40 + payload c
              decodeBytes (some (Char.ofNat n) :: done) rest''
            else decodeBytes (none :: done) (c :: rest'')
          | [] => (none :: done).reverse
        else decodeBytes (none :: done) (b :: rest')
      | [] => (none :: done).reverse
    else if 0xF0 ≤ a && a ≤ 0xF4 then
      match rest with
      | b :: rest' =>
        if isSecond a b then
          match rest' with
          | c :: rest'' =>
            if isContinuation c then
              match rest'' with
              | d :: rest''' =>
                if isContinuation d then
                  let n := ((a.toNat % 0x08 * 0x40 + payload b) * 0x40 + payload c) * 0x40 +
                    payload d
                  decodeBytes (some (Char.ofNat n) :: done) rest'''
                else decodeBytes (none :: done) (d :: rest''')
              | [] => (none :: done).reverse
            else decodeBytes (none :: done) (c :: rest'')
          | [] => (none :: done).reverse
        else decodeBytes (none :: done) (b :: rest')
      | [] => (none :: done).reverse
    else decodeBytes (none :: done) rest

/-- The text that bytes encode, if all of them do. -/
def decode? (bytes : ByteArray) : Option (List Char) :=
  let decoded := decodeBytes [] bytes.toList
  if decoded.all Option.isSome then some (decoded.filterMap id) else none

/-- The text that bytes encode, with the replacement character for each failure. -/
def decodeLossy (bytes : ByteArray) : List Char :=
  (decodeBytes [] bytes.toList).map (·.getD '\uFFFD')

/-- The bytes of a text, each as the character with that number. -/
def byteView (text : String) : List Char :=
  text.toUTF8.toList.map (fun b => Char.ofNat b.toNat)

end Lineage.Text
