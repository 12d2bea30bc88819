import Lineage.Number.Decimal

/-!
# Numbers with a 53-bit mantissa

A quotient is rounded to the nearest number of the form `m · 2 ^ e` with `m < 2 ^ 53` and
`e ≥ -1074`, halves going to the even `m`.  Such a number is written with the fewest decimal
digits that round back to it.  A number is finite if `e ≤ 971`.
-/

namespace Lineage.Number

/-- The number `mantissa · 2 ^ exponent`. -/
structure Binary where
  mantissa : Nat
  exponent : Int
  deriving DecidableEq, Repr, Inhabited

namespace Binary

/-! ### Rounding -/

/-- The quotient `num / (den · base ^ exponent)` as a pair of natural numbers. -/
def scaled (base num den : Nat) (exponent : Int) : Nat × Nat :=
  if 0 ≤ exponent then (num, den * base.pow exponent.toNat)
  else (num * base.pow (-exponent).toNat, den)

/-- The number nearest to `num / den`, for positive `den`. -/
def nearest (num den : Nat) : Binary :=
  let level : Int := (num.log2 : Int) - (den.log2 : Int)
  -- `num / den` lies between `2 ^ (level - 1)` and `2 ^ (level + 1)`
  let (a, b) := scaled 2 num den level
  let exponent := max (if a < b then level - 53 else level - 52) (-1074)
  let (a, b) := scaled 2 num den exponent
  let mantissa := roundDiv a b
  if mantissa == Nat.pow 2 53 then ⟨Nat.pow 2 52, exponent + 1⟩ else ⟨mantissa, exponent⟩

/-- The value as a quotient of natural numbers. -/
def quotient (x : Binary) : Nat × Nat :=
  if 0 ≤ x.exponent then (x.mantissa * Nat.pow 2 x.exponent.toNat, 1)
  else (x.mantissa, Nat.pow 2 (-x.exponent).toNat)

/-- Whether a number is small enough for eleven bits of exponent. -/
def isFinite (x : Binary) : Bool :=
  x.exponent ≤ 971

/-- The number nearest to the product of two. -/
def mul (x y : Binary) : Binary :=
  nearest (x.quotient.1 * y.quotient.1) (x.quotient.2 * y.quotient.2)

/-- The number nearest to the quotient of two, the second of them positive. -/
def div (x y : Binary) : Binary :=
  nearest (x.quotient.1 * y.quotient.2) (x.quotient.2 * y.quotient.1)

/-- The number nearest to a power of ten. -/
def tenPow (k : Nat) : Binary :=
  nearest (Nat.pow 10 k) 1

/-! ### Reading decimals -/

/-- The number nearest to `digits · 10 ^ exponent`, if it is finite. -/
def ofDecimal? (digits : Nat) (exponent : Int) : Option Binary :=
  -- `digits` has `count` decimal digits
  let count : Int := (Number.digits digits).length
  if digits == 0 || count + exponent < -330 then some ⟨0, 0⟩
  else if 310 < count + exponent then none
  else
    let (num, den) := scaled 10 digits 1 (-exponent)
    some (nearest num den) |>.filter isFinite

/-- `x` divided by `10 ^ exponent` in steps of at most `10 ^ 308`, each of them rounded. -/
def divTenPow (x : Binary) (exponent : Nat) : Binary :=
  if x.mantissa == 0 then x
  else if exponent ≤ 308 then x.div (tenPow exponent)
  else (x.div (tenPow 308)).divTenPow (exponent - 308)
  termination_by exponent

/-- `digits · 10 ^ exponent` by one rounding of the digits and one for each step of scaling, if it
is finite.  The result may differ from the nearest number in its last places. -/
def scaleDecimal? (digits : Nat) (exponent : Int) : Option Binary :=
  let x := nearest digits 1
  match exponent with
  | .negSucc k => some (x.divTenPow (k + 1))
  | .ofNat k =>
    if digits == 0 then some x
    else if 308 < k then none
    else some (x.mul (tenPow k)) |>.filter isFinite

/-! ### Writing decimals -/

/-- The decimal exponent `k` with `10 ^ (k - 1) ≤ num / den < 10 ^ k`, searched upwards from a
lower bound. -/
def decimalExponent (num den : Nat) : Nat → Int → Int
  | 0, k => k
  | fuel + 1, k =>
    let (a, b) := scaled 10 num den k
    if a < b then k else decimalExponent num den fuel (k + 1)

/-- The fewest digits that read back as `x`: the digits as a number, and the power of ten they
are multiplied by. -/
def shortest (x : Binary) : Nat × Int :=
  let (num, den) := x.quotient
  let level : Int := (num.log2 : Int) - (den.log2 : Int)
  -- the value is at least `2 ^ (level - 1)`, and `log 2 / log 10` is about `0.30103`
  let top := decimalExponent num den 8 ((level - 1) * 30103 / 100000 - 1)
  let readsBack (c : Nat) (k : Int) : Bool :=
    let (a, b) := scaled 10 c 1 (-k)
    c != 0 && nearest a b == x
  let attempt (count : Nat) : Option (Nat × Int) :=
    let k := top - count
    let (a, b) := scaled 10 num den k
    let low := a / b
    let order := if roundDiv a b == low then [low, low + 1] else [low + 1, low]
    (order.find? (fun c => readsBack c k)).map (fun c => (c, k))
  ((List.range 17).findSome? (fun i => attempt (i + 1))).getD (num / den, 0)

/-- Positional text for moderate sizes and an exponent with its sign for the others; a whole number
keeps one zero after the point. -/
def toText (x : Binary) : String :=
  if x.mantissa == 0 then "0.0"
  else
    let (c, k) := x.shortest
    let ds := digits c
    let count : Int := ds.length
    let point := count + k
    String.ofList <|
      if 0 ≤ k && point ≤ 16 then ds ++ List.replicate k.toNat '0' ++ ['.', '0']
      else if 0 < point && point ≤ 16 then ds.take point.toNat ++ '.' :: ds.drop point.toNat
      else if -5 < point && point ≤ 0 then
        ['0', '.'] ++ List.replicate (-point).toNat '0' ++ ds
      else
        let sign := if point - 1 < 0 then '-' else '+'
        let power := 'e' :: sign :: digits (point - 1).natAbs
        match ds with
        | d :: e :: rest => d :: '.' :: e :: rest ++ power
        | _ => ds ++ power

end Binary

/-- A number with a sign; there are two zeros. -/
structure Signed where
  negative : Bool
  size : Binary
  deriving DecidableEq, Repr, Inhabited

namespace Signed

/-- The text of a number behind its sign. -/
def toText (x : Signed) : String :=
  (if x.negative then "-" else "") ++ x.size.toText

end Signed

end Lineage.Number
