import EventQueue.Lib.JsValue

/-!
# JavaScript's numbers of what `JSON.parse` returns

`toNumber` is the conversion that a comparison with a number makes. NaN is the inner `none`, and a
conversion that throws is the outer one. `localizes` says whether `toLocaleString` returns, which
looks for methods at the value and, in arrays, at its elements; a value on which it does is
converted (`toNumber_isSome`).
-/

namespace JsNumber

/-- `x < y`, neither of them NaN. -/
def lt : JsNumber → JsNumber → Bool
  | .finite q, .finite r => q < r
  | .finite _, .infinity negative => !negative
  | .infinity negative, .finite _ => negative
  | .infinity negative, .infinity negative' => negative && !negative'

/-- `x < y`, where `none` is NaN. -/
def less (x y : Option JsNumber) : Bool :=
  match x, y with
  | some x, some y => lt x y
  | _, _ => false

/-- `x <= y`, where `none` is NaN. -/
def atMost (x y : Option JsNumber) : Bool :=
  match x, y with
  | some x, some y => !lt y x
  | _, _ => false

end JsNumber

namespace Json

/-! ## Strings -/

/-- `StrUnsignedDecimalLiteral` other than `Infinity`: its coefficient and its exponent. -/
def readDecimal (s : JsString) : Option (ℕ × ℤ) :=
  let i := s.takeWhile isDigit
  let r := s.dropWhile isDigit
  let f := if r.head? = some decimalPoint then r.tail.takeWhile isDigit else []
  let r := if r.head? = some decimalPoint then r.tail.dropWhile isDigit else r
  if i.isEmpty && f.isEmpty then none
  else
    match readExp r with
    | some (n, []) => some (ofDigits (i ++ f), n - f.length)
    | _ => none

/-- `StrDecimalLiteral` after its sign. -/
def decimalNumber (negative : Bool) (s : JsString) : Option JsNumber :=
  if s = JsString.ofString "Infinity" then some (.infinity negative)
  else (readDecimal s).map fun p => JsNumber.ofDecimal negative p.1 p.2

/-- `StringToNumber`; `none` is NaN. -/
def stringToNumber (s : JsString) : Option JsNumber :=
  match trim s with
  | [] => some (.finite 0)
  | u :: t =>
    if u = plus then decimalNumber false t
    else if u = minus then decimalNumber true t
    else if u = zero ∧ t.head?.any fun v => v = 0x78 || v = 0x58 then
      (natOf 16 t.tail).map fun n => JsNumber.ofDecimal false n 0
    else if u = zero ∧ t.head?.any fun v => v = 0x6F || v = 0x4F then
      (natOf 8 t.tail).map fun n => JsNumber.ofDecimal false n 0
    else if u = zero ∧ t.head?.any fun v => v = 0x62 || v = 0x42 then
      (natOf 2 t.tail).map fun n => JsNumber.ofDecimal false n 0
    else decimalNumber false (u :: t)

example : stringToNumber (JsString.ofString " .5e1 ") = some (.finite 5) ∧
    stringToNumber (JsString.ofString "0x10") = some (.finite 16) ∧
    stringToNumber (JsString.ofString "5 0") = none := by decide +kernel

/-! ## Values -/

/-- `ToNumber`. What has no primitive value of its own is converted to a string first. -/
def toNumber : Json → Option (Option JsNumber)
  | .null => some (some (.finite 0))
  | .bool b => some (some (.finite (if b then 1 else 0)))
  | .number negative c e => some (some (JsNumber.ofDecimal negative c e))
  | .string s => some (stringToNumber s)
  | .array vs => (join vs).map stringToNumber
  | .object ms => (toStr (.object ms)).map stringToNumber

/-- The name of the method that `toLocaleString` is. -/
def toLocaleStringName : JsString := JsString.ofString "toLocaleString"

mutual

/-- `x.toLocaleString()` returns, for an `x` that is not `null`: no object that it looks at has its
own `toLocaleString` or `toString`. -/
def localizes : Json → Bool
  | .array vs => localizesAll vs
  | .object ms => ms.all fun m => m.1 ≠ toLocaleStringName && m.1 ≠ toStringName
  | .null | .bool _ | .number .. | .string _ => true

/-- It returns for each of an array's elements, where `null` is left out. -/
def localizesAll : List Json → Bool
  | [] => true
  | v :: vs => localizes v && localizesAll vs

end

mutual

/-- A value for which `toLocaleString` returns is converted to a string. -/
theorem convertible_of_localizes : ∀ v : Json, localizes v = true → Convertible v
  | .null, _ => .null
  | .bool b, _ => .bool b
  | .number negative c e, _ => .number negative c e
  | .string s, _ => .string s
  | .array vs, h => .array vs (convertible_of_localizesAll vs (by rwa [localizes] at h))
  | .object ms, h => by
    refine .object ms fun m hm => ?_
    rw [localizes, List.all_eq_true] at h
    simpa using (Bool.and_eq_true_iff.mp (h m hm)).2

theorem convertible_of_localizesAll :
    ∀ vs : List Json, localizesAll vs = true → ∀ v ∈ vs, Convertible v
  | [], _ => by simp
  | v :: vs, h => by
    rw [localizesAll, Bool.and_eq_true] at h
    exact List.forall_mem_cons.mpr
      ⟨convertible_of_localizes v h.1, convertible_of_localizesAll vs h.2⟩

end

/-- So it is converted to a number. -/
theorem toNumber_isSome {v : Json} (h : localizes v = true) : (toNumber v).isSome = true := by
  have hstring : (toStr v).isSome = true := (toStr_isSome v).mpr (convertible_of_localizes v h)
  cases v with
  | array vs => rwa [toNumber, Option.isSome_map]
  | object ms => rwa [toNumber, Option.isSome_map]
  | _ => rfl

end Json
