import Lineage.Data.Json

/-!
# TOML text

A document is a list of lines: headers that open a table, and keys with values for the table that
is open.  A table is defined only once: by one header, by dotted keys under one header, or as an
inline table.  Keys have at most 80 parts, and values nest at most 80 deep.
-/

namespace Lineage.Data.Toml

/-! ### Tables -/

/-- How a table came about. -/
inductive Origin where
  /-- As a part of the path of some header. -/
  | implied
  /-- By a header of its own. -/
  | header
  /-- As a part of a dotted key. -/
  | dotted
  deriving DecidableEq, Repr, Inhabited

/-- What a key stands for while a document is read. -/
inductive Item where
  | value (data : Data)
  | table (origin : Origin) (fields : List (String × Item))
  /-- A list of tables, the last one first. -/
  | tables (newest : List (String × Item)) (older : List (List (String × Item)))
  deriving Inhabited

/-- The fields of a table. -/
abbrev Fields := List (String × Item)

/-- Replaces the item of a key, or adds it at the end. -/
def putItem (key : String) (item : Item) : Fields → Fields
  | [] => [(key, item)]
  | (other, old) :: rest =>
    if other == key then (key, item) :: rest else (other, old) :: putItem key item rest

/-- Changes the table that a path of a header leads to; tables on the way are made, and a list of
tables stands for its newest. -/
def below (change : Fields → Option Fields) : List String → Fields → Option Fields
  | [], fields => change fields
  | key :: rest, fields =>
    match fields.lookup key with
    | none => (below change rest []).map (fun sub => putItem key (.table .implied sub) fields)
    | some (.table origin sub) =>
      (below change rest sub).map (fun sub => putItem key (.table origin sub) fields)
    | some (.tables newest older) =>
      (below change rest newest).map (fun newest => putItem key (.tables newest older) fields)
    | some (.value _) => none

/-- Opens the table of a header. -/
def openTable (key : String) (fields : Fields) : Option Fields :=
  match fields.lookup key with
  | none => some (putItem key (.table .header []) fields)
  | some (.table .implied sub) => some (putItem key (.table .header sub) fields)
  | some _ => none

/-- Opens a further table of a list of tables. -/
def openElement (key : String) (fields : Fields) : Option Fields :=
  match fields.lookup key with
  | none => some (putItem key (.tables [] []) fields)
  | some (.tables newest older) => some (putItem key (.tables [] (newest :: older)) fields)
  | some _ => none

/-- Gives a value to a dotted key.  The table that gets the value has to come from dotted keys; the
tables above it must only not have a header of their own. -/
def assign (data : Data) : List String → Fields → Option Fields
  | [], _ => none
  | [key], fields =>
    match fields.lookup key with
    | none => some (putItem key (.value data) fields)
    | some _ => none
  | key :: rest, fields =>
    match fields.lookup key with
    | none => (assign data rest []).map (fun sub => putItem key (.table .dotted sub) fields)
    | some (.table origin sub) =>
      if origin == .dotted || (origin == .implied && 1 < rest.length) then
        (assign data rest sub).map (fun sub => putItem key (.table origin sub) fields)
      else none
    | some (.tables newest older) =>
      if 1 < rest.length then
        (assign data rest newest).map (fun newest => putItem key (.tables newest older) fields)
      else none
    | some (.value _) => none

mutual

/-- The value of an item. -/
def itemData : Item → Data
  | .value data => data
  | .table _ fields => .record (fieldsData fields)
  | .tables newest older => .list (olderData older [.record (fieldsData newest)])

/-- The values of the fields of a table. -/
def fieldsData : Fields → List (String × Data)
  | [] => []
  | (key, item) :: rest => (key, itemData item) :: fieldsData rest

/-- The tables of a list, given the last one first, before `found`. -/
def olderData : List Fields → List Data → List Data
  | [], found => found
  | fields :: rest, found => olderData rest (.record (fieldsData fields) :: found)

end

/-! ### Characters -/

/-- A blank within a line. -/
def isSpace (c : Char) : Bool :=
  c == ' ' || c == '\t'

/-- A character that may stand in a comment or a string. -/
def isPlain (c : Char) : Bool :=
  c == '\t' || (0x20 ≤ c.toNat && c.toNat != 0x7F)

/-- A character of a key without quotes. -/
def isBare (c : Char) : Bool :=
  c.isAlphanum || c == '_' || c == '-'

/-- Drops the blanks at the start of a text. -/
def skipSpace (chars : List Char) : List Char :=
  chars.dropWhile isSpace

/-- Drops a newline from the start of a text. -/
def newline? : List Char → Option (List Char)
  | '\n' :: rest => some rest
  | '\r' :: '\n' :: rest => some rest
  | _ => none

/-- Drops a comment from the start of a text, if there is one. -/
def skipComment (chars : List Char) : List Char :=
  match chars with
  | '#' :: rest => rest.dropWhile isPlain
  | chars => chars

/-- Drops blanks, comments and newlines. -/
def skipLines : Nat → List Char → List Char
  | 0, chars => chars
  | fuel + 1, chars =>
    let rest := skipComment (skipSpace chars)
    match newline? rest with
    | some rest => skipLines fuel rest
    | none => rest

/-- Drops the end of a line: blanks, a comment, and a newline unless the text ends. -/
def endLine? (chars : List Char) : Option (List Char) :=
  match skipComment (skipSpace chars) with
  | [] => some []
  | rest => newline? rest

/-! ### Strings and keys -/

/-- The number that hexadecimal digits write. -/
def hexNumber? (digits : List Char) : Option Nat :=
  digits.foldlM (fun n c => (hexValue? c).map (n * 16 + ·)) 0

/-- A character given by its number in `count` digits, and the text after it. -/
def numberedChar? (count : Nat) (chars : List Char) : Option (Char × List Char) :=
  if chars.length < count then none
  else ((hexNumber? (chars.take count)).bind scalar?).map (fun c => (c, chars.drop count))

/-- The character of an escape after the backslash, and the text after it. -/
def escape? : List Char → Option (Char × List Char)
  | 'b' :: rest => some ('\x08', rest)
  | 'e' :: rest => some ('\x1b', rest)
  | 't' :: rest => some ('\t', rest)
  | 'n' :: rest => some ('\n', rest)
  | 'f' :: rest => some ('\x0c', rest)
  | 'r' :: rest => some ('\r', rest)
  | '"' :: rest => some ('"', rest)
  | '\\' :: rest => some ('\\', rest)
  | 'x' :: rest => numberedChar? 2 rest
  | 'u' :: rest => numberedChar? 4 rest
  | 'U' :: rest => numberedChar? 8 rest
  | _ => none

/-- Reads the rest of a string in double quotes on one line. -/
def readBasic : Nat → List Char → List Char → Option (String × List Char)
  | 0, _, _ => none
  | fuel + 1, done, chars =>
    match chars with
    | [] => none
    | '"' :: rest => some (String.ofList done.reverse, rest)
    | '\\' :: rest =>
      match escape? rest with
      | none => none
      | some (c, rest) => readBasic fuel (c :: done) rest
    | c :: rest => if isPlain c then readBasic fuel (c :: done) rest else none

/-- Reads the rest of a string in single quotes on one line. -/
def readLiteral (chars : List Char) : Option (String × List Char) :=
  let body := chars.takeWhile (fun c => c != '\x27' && isPlain c)
  match chars.drop body.length with
  | '\x27' :: rest => some (String.ofList body, rest)
  | _ => none

/-- Drops a newline at the start of a string over several lines. -/
def skipFirstNewline (chars : List Char) : List Char :=
  (newline? chars).getD chars

/-- Reads the closing quotes of a string over several lines: three, with up to two more that
belong to the string. -/
def closeQuotes (quote : Char) (done chars : List Char) : Option (String × List Char) :=
  let count := (chars.takeWhile (· == quote)).length
  if count < 3 then none
  else
    let inside := min (count - 3) 2
    some (String.ofList (List.replicate inside quote ++ done).reverse, chars.drop (inside + 3))

/-- Drops blanks and at most `fuel` newlines. -/
def dropBlank : Nat → List Char → List Char
  | 0, chars => chars
  | fuel + 1, chars =>
    match newline? (skipSpace chars) with
    | some rest => dropBlank fuel rest
    | none => skipSpace chars

/-- Drops blanks and newlines after a backslash at the end of a line. -/
def skipContinuation (chars : List Char) : Option (List Char) :=
  match newline? (skipSpace chars) with
  | none => none
  | some rest => some (dropBlank rest.length rest)

/-- Reads the rest of a string in double quotes over several lines. -/
def readBasicLines : Nat → List Char → List Char → Option (String × List Char)
  | 0, _, _ => none
  | fuel + 1, done, chars =>
    match chars with
    | [] => none
    | '"' :: rest =>
      match closeQuotes '"' done ('"' :: rest) with
      | some result => some result
      | none => readBasicLines fuel ('"' :: done) rest
    | '\\' :: rest =>
      match skipContinuation rest with
      | some rest => readBasicLines fuel done rest
      | none =>
        match escape? rest with
        | none => none
        | some (c, rest) => readBasicLines fuel (c :: done) rest
    | '\r' :: '\n' :: rest => readBasicLines fuel ('\n' :: '\r' :: done) rest
    | c :: rest =>
      if c == '\n' || isPlain c then readBasicLines fuel (c :: done) rest else none

/-- Reads the rest of a string in single quotes over several lines. -/
def readLiteralLines : Nat → List Char → List Char → Option (String × List Char)
  | 0, _, _ => none
  | fuel + 1, done, chars =>
    match chars with
    | [] => none
    | '\x27' :: rest =>
      match closeQuotes '\x27' done ('\x27' :: rest) with
      | some result => some result
      | none => readLiteralLines fuel ('\x27' :: done) rest
    | '\r' :: '\n' :: rest => readLiteralLines fuel ('\n' :: '\r' :: done) rest
    | c :: rest =>
      if c == '\n' || isPlain c then readLiteralLines fuel (c :: done) rest else none

/-- Reads one part of a key. -/
def readKeyPart (chars : List Char) : Option (String × List Char) :=
  match chars with
  | '"' :: rest => readBasic (rest.length + 1) [] rest
  | '\x27' :: rest => readLiteral rest
  | chars =>
    let bare := chars.takeWhile isBare
    if bare.isEmpty then none else some (String.ofList bare, chars.drop bare.length)

/-- The number of parts that a key may have, and of brackets that may be open in a value. -/
def maxDepth : Nat := 80

/-- Reads a dotted key of at most `count` parts. -/
def readParts : Nat → List Char → Option (List String × List Char)
  | 0, _ => none
  | count + 1, chars =>
    match readKeyPart (skipSpace chars) with
    | none => none
    | some (part, rest) =>
      match skipSpace rest with
      | '.' :: rest => (readParts count rest).map (fun (parts, rest) => (part :: parts, rest))
      | rest => some ([part], rest)

/-- Reads a dotted key. -/
def readKey (chars : List Char) : Option (List String × List Char) :=
  readParts maxDepth chars

/-! ### Numbers and dates -/

/-- Removes the underscores between digits; each has to stand between two of them. -/
def joinDigits? (isDigit : Char → Bool) : List Char → Option (List Char)
  | [] => none
  | [c] => if isDigit c then some [c] else none
  | c :: '_' :: rest =>
    if isDigit c then (joinDigits? isDigit rest).map (c :: ·) else none
  | c :: rest => if isDigit c then (joinDigits? isDigit rest).map (c :: ·) else none

/-- An integer of at most 128 bits, with or without a sign. -/
def bounded? (n : Int) : Option Data :=
  if -(Nat.pow 2 127 : Int) ≤ n && n < Nat.pow 2 128 then some (.integer n) else none

/-- The integer that digits of a base write. -/
def based? (base : Nat) (digits : List Char) : Option Data := do
  let digits ← joinDigits? (fun c => (hexValue? c).any (· < base)) digits
  let n ← digits.foldlM (fun n c => (hexValue? c).map (n * base + ·)) 0
  bounded? n

/-- A sign at the start of a number: whether it is negative, and the rest. -/
def splitSign : List Char → Bool × List Char
  | '-' :: rest => (true, rest)
  | '+' :: rest => (false, rest)
  | chars => (false, chars)

/-- The decimal integer that a word writes; there is no zero in front. -/
def decimal? (word : List Char) : Option Data := do
  let (negative, body) := splitSign word
  let digits ← joinDigits? Char.isDigit body
  if 1 < digits.length && digits.head? == some '0' then none
  else
    let n : Int := Number.ofDigits digits
    bounded? (if negative then -n else n)

/-- The number with a point or an exponent that a word writes; it has to be finite unless the word
names infinity.  Infinity and what is no number read as zero, for nothing is configured by them. -/
def float? (word : List Char) : Option Data := do
  let (negative, body) := splitSign word
  if body == "inf".toList || body == "nan".toList then some (.real ⟨negative, ⟨0, 0⟩⟩)
  else
    let whole := body.takeWhile (fun c => c.isDigit || c == '_')
    let digits ← joinDigits? Char.isDigit whole
    if 1 < digits.length && digits.head? == some '0' then none
    else
      let (fraction, rest) ← match body.drop whole.length with
        | '.' :: rest =>
          let part := rest.takeWhile (fun c => c.isDigit || c == '_')
          (joinDigits? Char.isDigit part).map (fun ds => (ds, rest.drop part.length))
        | rest => some ([], rest)
      let exponent ← match rest with
        | [] => some none
        | e :: rest =>
          if e == 'e' || e == 'E' then
            let (negative, body) := splitSign rest
            (joinDigits? Char.isDigit body).map (fun ds =>
              let n : Int := Number.ofDigits ds
              some (if negative then -n else n))
          else none
      if fraction.isEmpty && exponent.isNone then none
      else
        let size ← Number.Binary.ofDecimal? (Number.ofDigits (digits ++ fraction))
          (exponent.getD 0 - fraction.length)
        some (.real ⟨negative, size⟩)

/-- Reads a number of exactly `count` digits that is not above `limit`. -/
def fixed? (count limit : Nat) (chars : List Char) : Option (Nat × List Char) :=
  let digits := chars.take count
  if digits.length == count && digits.all Char.isDigit && Number.ofDigits digits ≤ limit then
    some (Number.ofDigits digits, chars.drop count)
  else none

/-- Drops a given character. -/
def drop? (c : Char) : List Char → Option (List Char)
  | d :: rest => if c == d then some rest else none
  | [] => none

/-- The number of days of a month. -/
def daysIn (year month : Nat) : Nat :=
  if month == 2 then
    if year % 4 == 0 && (year % 100 != 0 || year % 400 == 0) then 29 else 28
  else if month == 4 || month == 6 || month == 9 || month == 11 then 30
  else 31

/-- Drops a date. -/
def date? (chars : List Char) : Option (List Char) := do
  let (year, rest) ← fixed? 4 9999 chars
  let rest ← drop? '-' rest
  let (month, rest) ← fixed? 2 12 rest
  let rest ← drop? '-' rest
  let (day, rest) ← fixed? 2 31 rest
  if month == 0 || day == 0 || daysIn year month < day then none else some rest

/-- Drops hours and minutes. -/
def hoursAndMinutes? (chars : List Char) : Option (List Char) := do
  let (_, rest) ← fixed? 2 23 chars
  let rest ← drop? ':' rest
  let (_, rest) ← fixed? 2 59 rest
  some rest

/-- Drops seconds, perhaps with a fraction. -/
def seconds? (chars : List Char) : Option (List Char) := do
  let (_, rest) ← fixed? 2 60 chars
  match rest with
  | '.' :: rest =>
    if rest.head?.any Char.isDigit then some (rest.dropWhile Char.isDigit) else none
  | rest => some rest

/-- Drops a time of the day; the seconds may be missing. -/
def time? (chars : List Char) : Option (List Char) := do
  let rest ← hoursAndMinutes? chars
  match rest with
  | ':' :: rest => seconds? rest
  | rest => some rest

/-- Drops the offset of a time from the standard one, if there is any. -/
def offset? (chars : List Char) : Option (List Char) :=
  match chars with
  | 'Z' :: rest => some rest
  | 'z' :: rest => some rest
  | '+' :: rest => hoursAndMinutes? rest
  | '-' :: rest => hoursAndMinutes? rest
  | chars => some chars

/-- Whether a word is a date, a time or both. -/
def isMoment (word : List Char) : Bool :=
  match time? word with
  | some [] => true
  | _ =>
    match date? word with
    | some [] => true
    | some (c :: rest) =>
      (c == 'T' || c == 't' || c == ' ') &&
        match (time? rest).bind offset? with
        | some [] => true
        | _ => false
    | none => false

/-- The value of a word that is neither quoted nor bracketed.  A date reads as a record without
fields. -/
def wordValue? (word : List Char) : Option Data :=
  if word == "true".toList then some (.bool true)
  else if word == "false".toList then some (.bool false)
  else match word with
    | '0' :: 'x' :: digits => based? 16 digits
    | '0' :: 'o' :: digits => based? 8 digits
    | '0' :: 'b' :: digits => based? 2 digits
    | word =>
      if isMoment word then some (.record [])
      else (decimal? word).or (float? word)

/-- A character of a word that is neither quoted nor bracketed. -/
def inWord (c : Char) : Bool :=
  c.isAlphanum || c == '_' || c == '-' || c == '+' || c == '.' || c == ':'

/-- Reads a word; a date may be followed by a blank and a time. -/
def readWord (chars : List Char) : List Char × List Char :=
  let word := chars.takeWhile inWord
  let rest := chars.drop word.length
  match date? word, rest with
  | some [], ' ' :: more =>
    if more.head?.any Char.isDigit then
      let time := more.takeWhile inWord
      (word ++ ' ' :: time, more.drop time.length)
    else (word, rest)
  | _, _ => (word, rest)

/-! ### Values -/

mutual

/-- Reads a value in which `room` brackets may be open. -/
def readValue : Nat → Nat → List Char → Option (Data × List Char)
  | 0, _, _ => none
  | fuel + 1, room, chars =>
    match chars with
    | '"' :: '"' :: '"' :: rest =>
      let body := skipFirstNewline rest
      (readBasicLines (body.length + 1) [] body).map (fun (s, rest) => (.text s, rest))
    | '"' :: rest => (readBasic (rest.length + 1) [] rest).map (fun (s, rest) => (.text s, rest))
    | '\x27' :: '\x27' :: '\x27' :: rest =>
      let body := skipFirstNewline rest
      (readLiteralLines (body.length + 1) [] body).map (fun (s, rest) => (.text s, rest))
    | '\x27' :: rest => (readLiteral rest).map (fun (s, rest) => (.text s, rest))
    | '[' :: rest =>
      if room == 0 then none
      else (readItems fuel (room - 1) [] rest).map (fun (items, rest) => (.list items, rest))
    | '{' :: rest =>
      if room == 0 then none
      else (readInline fuel (room - 1) [] rest).map (fun (fields, rest) =>
        (.record (fieldsData fields), rest))
    | chars =>
      let (word, rest) := readWord chars
      (wordValue? word).map (fun value => (value, rest))

/-- Reads the values of a list up to its closing bracket; a comma may follow the last one. -/
def readItems : Nat → Nat → List Data → List Char → Option (List Data × List Char)
  | 0, _, _, _ => none
  | fuel + 1, room, done, chars =>
    match skipLines (chars.length + 1) chars with
    | ']' :: rest => some (done.reverse, rest)
    | rest =>
      match readValue fuel room rest with
      | none => none
      | some (value, rest) =>
        match skipLines (rest.length + 1) rest with
        | ',' :: rest => readItems fuel room (value :: done) rest
        | ']' :: rest => some ((value :: done).reverse, rest)
        | _ => none

/-- Reads the keys and values of an inline table up to its closing brace; a comma may follow the
last one. -/
def readInline : Nat → Nat → Fields → List Char → Option (Fields × List Char)
  | 0, _, _, _ => none
  | fuel + 1, room, fields, chars =>
    match skipLines (chars.length + 1) chars with
    | '}' :: rest => some (fields, rest)
    | rest =>
      match readKey rest with
      | none => none
      | some (key, rest) =>
        match skipSpace rest with
        | '=' :: rest =>
          match readValue fuel room (skipSpace rest) with
          | none => none
          | some (value, rest) =>
            match assign value key fields with
            | none => none
            | some fields =>
              match skipLines (rest.length + 1) rest with
              | ',' :: rest => readInline fuel room fields rest
              | '}' :: rest => some (fields, rest)
              | _ => none
        | _ => none

end

/-! ### Documents -/

/-- What has been read of a document: its fields, and the path of the table that is open. -/
structure State where
  fields : Fields := []
  path : List String := []
  deriving Inhabited

/-- Reads a header up to its closing brackets and opens its table. -/
def readHeader (s : State) (isList : Bool) (chars : List Char) : Option (State × List Char) := do
  let (path, rest) ← readKey chars
  let rest ← drop? ']' (skipSpace rest)
  let rest ← if isList then drop? ']' rest else some rest
  let key ← path.getLast?
  let change := if isList then openElement key else openTable key
  let fields ← below change path.dropLast s.fields
  some (⟨fields, path⟩, rest)

/-- Reads a key with its value. -/
def readPair (s : State) (chars : List Char) : Option (State × List Char) := do
  let (key, rest) ← readKey chars
  let rest ← drop? '=' (skipSpace rest)
  let rest := skipSpace rest
  let (value, rest) ← readValue (rest.length + 1) maxDepth rest
  let fields ← below (assign value key) s.path s.fields
  some ({ s with fields }, rest)

/-- Reads lines up to the end of the text. -/
def readLines : Nat → State → List Char → Option State
  | 0, _, _ => none
  | fuel + 1, s, chars =>
    match skipLines (chars.length + 1) chars with
    | [] => some s
    | chars =>
      let read := match chars with
        | '[' :: '[' :: rest => readHeader s true rest
        | '[' :: rest => readHeader s false rest
        | chars => readPair s chars
      match read with
      | none => none
      | some (s, rest) =>
        match endLine? rest with
        | none => none
        | some rest => readLines fuel s rest

/-- Drops a mark of the byte order. -/
def skipMark : List Char → List Char
  | '\uFEFF' :: rest => rest
  | chars => chars

/-- The record that a document describes. -/
def parse? (document : List Char) : Option Data :=
  let chars := skipMark document
  (readLines (chars.length + 1) {} chars).map (fun s => .record (fieldsData s.fields))

end Lineage.Data.Toml
