/-!
# Decimal text of numbers

Natural numbers in base ten, quotients rounded to nearest with halves going to the even
neighbour, and quotients written with one place after the point.
-/

namespace Lineage.Number

/-- The decimal digits of `n`. -/
def digits (n : Nat) : List Char :=
  Nat.toDigits 10 n

/-- The value of a list of decimal digits. -/
def ofDigits (text : List Char) : Nat :=
  text.foldl (fun value c => value * 10 + (c.toNat - '0'.toNat)) 0

/-- The number that `text` writes: decimal digits and nothing else, at least one, perhaps behind a
plus sign, with a value below `bound`. -/
def read? (bound : Nat) (text : List Char) : Option Nat :=
  let body := match text with
    | '+' :: rest => rest
    | _ => text
  if body.isEmpty || !body.all Char.isDigit then none
  else some (ofDigits body) |>.filter (· < bound)

/-- The quotient `num / den` rounded to the nearest natural number, halves to the even one. -/
def roundDiv (num den : Nat) : Nat :=
  let q := num / den
  let r := num % den
  if 2 * r < den then q
  else if den < 2 * r then q + 1
  else if q % 2 == 0 then q
  else q + 1

/-- The quotient `num / den` with one place after the point. -/
def oneDecimal (num den : Nat) : String :=
  let tenths := roundDiv (num * 10) den
  String.ofList (digits (tenths / 10) ++ '.' :: digits (tenths % 10))

/-- `text` behind as many blanks as make it `columns` characters long. -/
def padLeft (columns : Nat) (text : List Char) : List Char :=
  List.replicate (columns - text.length) ' ' ++ text

end Lineage.Number
