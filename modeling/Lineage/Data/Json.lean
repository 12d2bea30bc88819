import Lineage.Data.Basic

/-!
# JSON text

Values are written on one line or spread over lines with two blanks for each level, and read back
from text.  Reading works on the list of characters and carries fuel for the nesting; a text of
`n` characters never needs more than `n + 1` steps.
-/

namespace Lineage.Data

/-! ### Writing -/

/-- The four hexadecimal digits of a small number. -/
def hex4 (n : Nat) : List Char :=
  let ds := Nat.toDigits 16 n
  List.replicate (4 - ds.length) '0' ++ ds

/-- One character of a JSON string. -/
def escapeChar (c : Char) : List Char :=
  match c with
  | '"' => ['\\', '"']
  | '\\' => ['\\', '\\']
  | '\n' => ['\\', 'n']
  | '\r' => ['\\', 'r']
  | '\t' => ['\\', 't']
  | '\x08' => ['\\', 'b']
  | '\x0c' => ['\\', 'f']
  | c => if c.toNat < 0x20 then '\\' :: 'u' :: hex4 c.toNat else [c]

/-- A JSON string. -/
def writeText (text : String) : List Char :=
  '"' :: text.toList.flatMap escapeChar ++ ['"']

/-- The digits of an integer behind its sign. -/
def writeInteger : Int → List Char
  | .ofNat n => Number.digits n
  | .negSucc n => '-' :: Number.digits (n + 1)

/-- Writes items with a separator between neighbours. -/
def separated (separator : List Char) : List (List Char) → List Char
  | [] => []
  | [item] => item
  | item :: more => item ++ separator ++ separated separator more

mutual

/-- A value on one line, without blanks. -/
def compactChars : Data → List Char
  | .null => "null".toList
  | .bool true => "true".toList
  | .bool false => "false".toList
  | .integer value => writeInteger value
  | .real value => value.toText.toList
  | .text value => writeText value
  | .list items => '[' :: separated [','] (compactItems items) ++ [']']
  | .record fields => '{' :: separated [','] (compactFields fields) ++ ['}']

/-- The items of a list, each on one line. -/
def compactItems : List Data → List (List Char)
  | [] => []
  | item :: more => compactChars item :: compactItems more

/-- The fields of a record, each on one line. -/
def compactFields : List (String × Data) → List (List Char)
  | [] => []
  | (name, value) :: more =>
    (writeText name ++ ':' :: compactChars value) :: compactFields more

end

/-- A newline and the indentation of a level. -/
def newline (level : Nat) : List Char :=
  '\n' :: List.replicate (2 * level) ' '

mutual

/-- A value spread over lines, where `level` levels are open around it. -/
def prettyChars (level : Nat) : Data → List Char
  | .list [] => "[]".toList
  | .list items =>
    '[' :: newline (level + 1) ++
      separated (',' :: newline (level + 1)) (prettyItems (level + 1) items) ++
      newline level ++ [']']
  | .record [] => ['{', '}']
  | .record fields =>
    '{' :: newline (level + 1) ++
      separated (',' :: newline (level + 1)) (prettyFields (level + 1) fields) ++
      newline level ++ ['}']
  | .null => "null".toList
  | .bool true => "true".toList
  | .bool false => "false".toList
  | .integer value => writeInteger value
  | .real value => value.toText.toList
  | .text value => writeText value

/-- The items of a list, each spread over lines. -/
def prettyItems (level : Nat) : List Data → List (List Char)
  | [] => []
  | item :: more => prettyChars level item :: prettyItems level more

/-- The fields of a record, each spread over lines. -/
def prettyFields (level : Nat) : List (String × Data) → List (List Char)
  | [] => []
  | (name, value) :: more =>
    (writeText name ++ ':' :: ' ' :: prettyChars level value) :: prettyFields level more

end

/-- A value as JSON on one line. -/
def compact (value : Data) : String :=
  String.ofList (compactChars value)

/-- A value as JSON spread over lines. -/
def pretty (value : Data) : String :=
  String.ofList (prettyChars 0 value)

/-! ### Reading -/

/-- Whether `c` may stand between the tokens of JSON. -/
def isGap (c : Char) : Bool :=
  c == ' ' || c == '\n' || c == '\r' || c == '\t'

/-- `chars` without the gap at its start. -/
def skipGap (chars : List Char) : List Char :=
  chars.dropWhile isGap

/-- The value of a hexadecimal digit. -/
def hexValue? (c : Char) : Option Nat :=
  if '0' ≤ c && c ≤ '9' then some (c.toNat - '0'.toNat)
  else if 'a' ≤ c && c ≤ 'f' then some (c.toNat - 'a'.toNat + 10)
  else if 'A' ≤ c && c ≤ 'F' then some (c.toNat - 'A'.toNat + 10)
  else none

/-- The number that four hexadecimal digits write. -/
def hexUnit? (a b c d : Char) : Option Nat := do
  let a ← hexValue? a
  let b ← hexValue? b
  let c ← hexValue? c
  let d ← hexValue? d
  some (((a * 16 + b) * 16 + c) * 16 + d)

/-- The character of a code point outside the surrogates. -/
def scalar? (n : Nat) : Option Char :=
  if n < 0xD800 || (0xE000 ≤ n && n < 0x110000) then some (Char.ofNat n) else none

/-- The character that a one-letter escape stands for. -/
def simpleEscape? : Char → Option Char
  | '"' => some '"'
  | '\\' => some '\\'
  | '/' => some '/'
  | 'n' => some '\n'
  | 'r' => some '\r'
  | 't' => some '\t'
  | 'b' => some '\x08'
  | 'f' => some '\x0c'
  | _ => none

/-- Reads the rest of a JSON string after its opening quote; `done` holds the characters read so
far, the last one first. -/
def readString (done : List Char) : List Char → Option (String × List Char)
  | '"' :: rest => some (String.ofList done.reverse, rest)
  | '\\' :: 'u' :: a :: b :: c :: d :: rest =>
    match hexUnit? a b c d with
    | none => none
    | some high =>
      match rest with
      | '\\' :: 'u' :: a' :: b' :: c' :: d' :: rest' =>
        if 0xD800 ≤ high && high < 0xDC00 then
          match hexUnit? a' b' c' d' with
          | none => none
          | some low =>
            if 0xDC00 ≤ low && low < 0xE000 then
              readString
                (Char.ofNat (0x10000 + (high - 0xD800) * 0x400 + (low - 0xDC00)) :: done) rest'
            else none
        else
          match scalar? high with
          | none => none
          | some c => readString (c :: done) ('\\' :: 'u' :: a' :: b' :: c' :: d' :: rest')
      | rest =>
        match scalar? high with
        | none => none
        | some c => readString (c :: done) rest
  | '\\' :: c :: rest =>
    match simpleEscape? c with
    | none => none
    | some c => readString (c :: done) rest
  | c :: rest => if c.toNat < 0x20 || c == '\\' then none else readString (c :: done) rest
  | [] => none
  termination_by chars => chars.length

/-- Reads the digits at the start of `chars`; there must be at least one. -/
def readDigits (chars : List Char) : Option (List Char × List Char) :=
  let ds := chars.takeWhile Char.isDigit
  if ds.isEmpty then none else some (ds, chars.dropWhile Char.isDigit)

/-- Reads the part of a number after the point, if there is one. -/
def readFraction : List Char → Option (List Char × List Char)
  | '.' :: rest => readDigits rest
  | chars => some ([], chars)

/-- Reads the exponent of a number, if there is one. -/
def readExponent : List Char → Option (Option Int × List Char)
  | 'e' :: rest | 'E' :: rest =>
    let (negative, body) := match rest with
      | '-' :: body => (true, body)
      | '+' :: body => (false, body)
      | body => (false, body)
    (readDigits body).map (fun (ds, rest) =>
      let n : Int := Number.ofDigits ds
      (some (if negative then -n else n), rest))
  | chars => some (none, chars)

/-- Appends decimal digits to `n` as long as the result fits into 64 bits; also the number of
digits that are left over. -/
def significand (n : Nat) : List Char → Nat × Nat
  | [] => (n, 0)
  | d :: rest =>
    let m := n * 10 + (d.toNat - '0'.toNat)
    if m < Nat.pow 2 64 then significand m rest else (n, (d :: rest).length)

/-- A number with a point or an exponent.  Of the whole digits those beyond 64 bits count as zeros,
of the others those beyond 64 bits are dropped. -/
def realNumber? (negative : Bool) (whole fraction : List Char) (exponent : Int) : Option Data :=
  let (n, skipped) := significand 0 whole
  let (n, dropped) := significand n fraction
  let used : Int := (fraction.length : Int) - dropped
  (Number.Binary.scaleDecimal? n (skipped - used + exponent)).map (fun size =>
    .real ⟨negative, size⟩)

/-- A number without point and exponent: an integer if it fits into 64 bits, and is not the negative
zero. -/
def wholeNumber? (negative : Bool) (whole : List Char) : Option Data :=
  let n := Number.ofDigits whole
  if negative && 0 < n && n ≤ Nat.pow 2 63 then some (.integer (-n))
  else if !negative && n < Nat.pow 2 64 then some (.integer n)
  else realNumber? negative whole [] 0

/-- Reads a number. -/
def readNumber (chars : List Char) : Option (Data × List Char) := do
  let (negative, chars) := match chars with
    | '-' :: rest => (true, rest)
    | chars => (false, chars)
  let (whole, chars) ← readDigits chars
  if 1 < whole.length && whole.head? == some '0' then none
  else
    let (fraction, chars) ← readFraction chars
    let (exponent, chars) ← readExponent chars
    let value ← if fraction.isEmpty && exponent.isNone then wholeNumber? negative whole
      else realNumber? negative whole fraction (exponent.getD 0)
    some (value, chars)

/-- Drops `word` from the start of `chars`. -/
def dropWord? (word chars : List Char) : Option (List Char) :=
  if word.isPrefixOf chars then some (chars.drop word.length) else none

mutual

/-- Reads one value. -/
def readValue : Nat → List Char → Option (Data × List Char)
  | 0, _ => none
  | fuel + 1, chars =>
    match skipGap chars with
    | '"' :: rest => (readString [] rest).map (fun (s, rest) => (.text s, rest))
    | '[' :: rest =>
      match skipGap rest with
      | ']' :: rest => some (.list [], rest)
      | rest => (readItems fuel [] rest).map (fun (items, rest) => (.list items, rest))
    | '{' :: rest =>
      match skipGap rest with
      | '}' :: rest => some (.record [], rest)
      | rest => (readFields fuel [] rest).map (fun (fields, rest) => (.record fields, rest))
    | 'n' :: rest => (dropWord? "ull".toList rest).map (fun rest => (.null, rest))
    | 't' :: rest => (dropWord? "rue".toList rest).map (fun rest => (.bool true, rest))
    | 'f' :: rest => (dropWord? "alse".toList rest).map (fun rest => (.bool false, rest))
    | rest => readNumber rest

/-- Reads the items of a list up to its closing bracket; `done` holds those read so far, the last
one first. -/
def readItems : Nat → List Data → List Char → Option (List Data × List Char)
  | 0, _, _ => none
  | fuel + 1, done, chars =>
    match readValue fuel chars with
    | none => none
    | some (item, rest) =>
      match skipGap rest with
      | ',' :: rest => readItems fuel (item :: done) rest
      | ']' :: rest => some ((item :: done).reverse, rest)
      | _ => none

/-- Reads the fields of a record up to its closing brace; `done` holds those read so far, the last
one first. -/
def readFields : Nat → List (String × Data) → List Char →
    Option (List (String × Data) × List Char)
  | 0, _, _ => none
  | fuel + 1, done, chars =>
    match skipGap chars with
    | '"' :: rest =>
      match readString [] rest with
      | none => none
      | some (name, rest) =>
        match skipGap rest with
        | ':' :: rest =>
          match readValue fuel rest with
          | none => none
          | some (value, rest) =>
            match skipGap rest with
            | ',' :: rest => readFields fuel ((name, value) :: done) rest
            | '}' :: rest => some (((name, value) :: done).reverse, rest)
            | _ => none
        | _ => none
    | _ => none

end

/-- The value that a JSON text writes, with nothing but gaps around it. -/
def ofJson? (text : String) : Option Data :=
  let chars := text.toList
  match readValue (chars.length + 1) chars with
  | some (value, rest) => if (skipGap rest).isEmpty then some value else none
  | none => none

end Lineage.Data
