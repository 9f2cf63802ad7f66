import EventQueue.Lib.JsString
import Mathlib.Data.Int.Log
import Mathlib.Data.List.DropRight

/-!
# JavaScript's numbers

The binary64 numbers that a decimal literal can denote, each with its exact value: the literal is
rounded to the nearest one, and to the even one of two. The two zeros are one here, since no
conversion in this library tells them apart.

`toString` is `Number::toString` in base ten: the fewest digits that are rounded to the number, laid
out with or without an exponent.
-/

/-- A number other than NaN. -/
inductive JsNumber
  | finite (q : ℚ)
  | infinity (negative : Bool)
deriving DecidableEq, Repr

namespace JsNumber

/-! ## Rounding -/

/-- The natural number that is nearest to a rational number, and the even one of two. -/
def roundHalfEven (q : ℚ) : ℕ :=
  let n := ⌊q⌋₊
  if q - n < 1 / 2 then n
  else if 1 / 2 < q - n then n + 1
  else if n % 2 = 0 then n
  else n + 1

/-- The exponent of the last of the 53 bits of a number, which is not below that of the subnormal
numbers. -/
def lastBit (q : ℚ) : ℤ := max (Int.log 2 q - 52) (-1074)

/-- A magnitude, rounded to 53 bits. -/
def round (q : ℚ) : ℚ := roundHalfEven (q / 2 ^ lastBit q) * 2 ^ lastBit q

/-- The number of a decimal literal. -/
def ofDecimal (negative : Bool) (coefficient : ℕ) (exponent : ℤ) : JsNumber :=
  let q := round (coefficient * 10 ^ exponent)
  if q < 2 ^ 1024 then .finite (if negative then -q else q) else .infinity negative

/-! ## Text -/

/-- Decimal digits. -/
def digits (n : ℕ) : JsString := (Nat.toDigits 10 n).map fun c => c.toNat.toUInt16

/-- The number of `k` digits, whose decimal point stands after the first `n`, that is rounded to
`q`, and the nearest one of these. -/
def candidate (q : ℚ) (n : ℤ) (k : ℕ) : Option ℕ :=
  let scaled := q * 10 ^ (k - n)
  [roundHalfEven scaled, ⌊scaled⌋₊, ⌊scaled⌋₊ + 1].find? fun s => round (s * 10 ^ (n - k)) = q

/-- The fewest digits that are rounded to `q`, and the place of the decimal point. Seventeen digits
are always enough. -/
def shortest (q : ℚ) : JsString × ℤ :=
  let n := Int.log 10 q + 1
  match (List.range 17).findSome? fun k => (candidate q n (k + 1)).map fun s => (s, k + 1) with
  | some (s, k) => ((digits s).rdropWhile (· = 0x30), n + (digits s).length - k)
  | none => ([], n)

/-- The digits of a number, with its decimal point after the first `n`. -/
def layOut (ds : JsString) (n : ℤ) : JsString :=
  if ds.length ≤ n ∧ n ≤ 21 then ds ++ List.replicate (n - ds.length).toNat 0x30
  else if 0 < n ∧ n ≤ 21 then ds.take n.toNat ++ 0x2E :: ds.drop n.toNat
  else if -6 < n ∧ n ≤ 0 then 0x30 :: 0x2E :: (List.replicate (-n).toNat 0x30 ++ ds)
  else
    let exponent := 0x65 :: (if 0 < n then 0x2B else 0x2D) :: digits (n - 1).natAbs
    if ds.length = 1 then ds ++ exponent else ds.take 1 ++ 0x2E :: (ds.drop 1 ++ exponent)

/-- `Number::toString`. -/
def toString : JsNumber → JsString
  | .finite q =>
    if q = 0 then [0x30]
    else (if q < 0 then [0x2D] else []) ++ layOut (shortest |q|).1 (shortest |q|).2
  | .infinity negative => (if negative then [0x2D] else []) ++ JsString.ofString "Infinity"

/-- `NumberToBigInt`, which throws a `RangeError` on what is no integer. -/
def toBigInt : JsNumber → Option ℤ
  | .finite q => if q.den = 1 then some q.num else none
  | .infinity _ => none

example : toString (ofDecimal false 1 23) = JsString.ofString "1e+23" ∧
    toString (ofDecimal true 5 (-324)) = JsString.ofString "-5e-324" ∧
    toString (ofDecimal false 17976931348623159 292) = JsString.ofString "Infinity" := by
  decide +kernel

end JsNumber
