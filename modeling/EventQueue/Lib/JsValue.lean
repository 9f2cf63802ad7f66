import EventQueue.Lib.Json
import EventQueue.Lib.JsNumber
import Mathlib.Data.List.Sort

/-!
# JavaScript's conversions of what `JSON.parse` returns

A value that `JSON.parse` returns has no methods of its own, so that the conversions of the language
depend on the value alone: `toStr` is `String(x)`, `toBigInt` is `BigInt(x)`, and `stringify` is
`JSON.stringify`. A conversion that throws is `none`. An object is its members in the order of the
text; a name that is there twice has its last value.

An object that has a member `toString` cannot be converted to a string, since that member is what
the language looks for first, and it is not a function. `toStr_isSome` says that nothing else stands
in the way.
-/

namespace Json

/-! ## Properties -/

/-- `x[key]`; `none` is `undefined`. -/
def property (key : JsString) : Json → Option Json
  | .object ms => (ms.reverse.find? fun m => m.1 = key).map Prod.snd
  | _ => none

/-- `x === null`. -/
def isNull : Json → Bool
  | .null => true
  | _ => false

/-- `Boolean(x)`. -/
def truthy : Json → Bool
  | .null => false
  | .bool b => b
  | .number negative c e => JsNumber.ofDecimal negative c e ≠ .finite 0
  | .string s => s ≠ []
  | .array _ | .object _ => true

/-- The name of the method that `String(x)` calls. -/
def toStringName : JsString := JsString.ofString "toString"

mutual

/-- `String(x)`. An object that has its own `toString` throws, since it is not a function, and
`valueOf` returns the object itself. -/
def toStr : Json → Option JsString
  | .null => some (JsString.ofString "null")
  | .bool b => some (JsString.ofString (if b then "true" else "false"))
  | .number negative c e => some (JsNumber.ofDecimal negative c e).toString
  | .string s => some s
  | .array vs => join vs
  | .object ms =>
    if ms.any fun m => m.1 = toStringName then none
    else some (JsString.ofString "[object Object]")

/-- `Array.prototype.join`, where `null` is the empty string. -/
def join : List Json → Option JsString
  | [] => some []
  | .null :: vs => joinRest vs
  | v :: vs => (toStr v).bind fun s => (joinRest vs).map (s ++ ·)

/-- What `join` appends for the elements after the first. -/
def joinRest : List Json → Option JsString
  | [] => some []
  | .null :: vs => (joinRest vs).map (valueSeparator :: ·)
  | v :: vs => (toStr v).bind fun s => (joinRest vs).map fun t => valueSeparator :: (s ++ t)

end

example : (parse (JsString.ofString "[null, [1.50, null], \x7b\"a\": 0\x7d, \"b\"]")).bind toStr =
    some (JsString.ofString ",1.5,,[object Object],b") := by decide +kernel

/-- Neither a value nor, in arrays, a part of it is an object with its own `toString`. -/
inductive Convertible : Json → Prop
  | null : Convertible .null
  | bool (b : Bool) : Convertible (.bool b)
  | number (negative : Bool) (c : ℕ) (e : ℤ) : Convertible (.number negative c e)
  | string (s : JsString) : Convertible (.string s)
  | array (vs : List Json) (h : ∀ v ∈ vs, Convertible v) : Convertible (.array vs)
  | object (ms : List (JsString × Json)) (h : ∀ m ∈ ms, m.1 ≠ toStringName) :
      Convertible (.object ms)

/-- Two results that both have to be there. -/
theorem isSome_bind_map {α β γ : Type} (x : Option α) (y : Option β) (f : α → β → γ) :
    (x.bind fun a => y.map (f a)).isSome = (x.isSome && y.isSome) := by
  cases x <;> cases y <;> rfl

theorem isSome_join_cons (v : Json) (vs : List Json) :
    (join (v :: vs)).isSome = ((toStr v).isSome && (joinRest vs).isSome) := by
  cases v with
  | null => rfl
  | bool | number | string | array | object => simp only [join, isSome_bind_map]

theorem isSome_joinRest_cons (v : Json) (vs : List Json) :
    (joinRest (v :: vs)).isSome = ((toStr v).isSome && (joinRest vs).isSome) := by
  cases v with
  | null => exact Option.isSome_map
  | bool | number | string | array | object => simp only [joinRest, isSome_bind_map]

mutual

/-- Exactly these values can be converted to a string. -/
theorem toStr_isSome : ∀ v : Json, (toStr v).isSome = true ↔ Convertible v
  | .null => iff_of_true rfl .null
  | .bool b => iff_of_true rfl (.bool b)
  | .number negative c e => iff_of_true rfl (.number negative c e)
  | .string s => iff_of_true rfl (.string s)
  | .array vs => by
    rw [toStr, join_isSome vs]
    constructor
    · exact .array vs
    · rintro ⟨⟩
      assumption
  | .object ms => by
    rw [toStr]
    constructor
    · intro h
      refine .object ms fun m hm heq => ?_
      rw [if_pos (List.any_eq_true.2 ⟨m, hm, decide_eq_true heq⟩)] at h
      cases h
    · rintro ⟨⟩
      rename_i h
      rw [if_neg]
      · rfl
      · intro hany
        obtain ⟨m, hm, heq⟩ := List.any_eq_true.1 hany
        exact h m hm (of_decide_eq_true heq)

theorem join_isSome : ∀ vs : List Json, (join vs).isSome = true ↔ ∀ v ∈ vs, Convertible v
  | [] => by simp [join]
  | v :: vs => by
    rw [isSome_join_cons, Bool.and_eq_true, List.forall_mem_cons, toStr_isSome v,
      joinRest_isSome vs]

theorem joinRest_isSome : ∀ vs : List Json, (joinRest vs).isSome = true ↔ ∀ v ∈ vs, Convertible v
  | [] => by simp [joinRest]
  | v :: vs => by
    rw [isSome_joinRest_cons, Bool.and_eq_true, List.forall_mem_cons, toStr_isSome v,
      joinRest_isSome vs]

end

/-! ## `BigInt` -/

/-- White space and line terminators of the language. -/
def isStrWhiteSpace (u : UInt16) : Bool :=
  u ∈ [0x09, 0x0A, 0x0B, 0x0C, 0x0D, 0x20, 0xA0, 0x1680, 0x2028, 0x2029, 0x202F, 0x205F, 0x3000,
    0xFEFF] || 0x2000 ≤ u && u ≤ 0x200A

/-- `String.prototype.trim`. -/
def trim (s : JsString) : JsString := (s.dropWhile isStrWhiteSpace).rdropWhile isStrWhiteSpace

/-- The value of a digit in a base. -/
def digitOf (base : ℕ) (u : UInt16) : Option ℕ :=
  (hexDigit u).bind fun d => if d.toNat < base then some d.toNat else none

/-- The number that one or more digits denote. -/
def natOf (base : ℕ) (s : JsString) : Option ℕ :=
  if s = [] then none
  else s.foldl (fun n u => n.bind fun n => (digitOf base u).map (n * base + ·)) (some 0)

/-- `StringToBigInt`, which `BigInt` throws a `SyntaxError` on. -/
def stringToBigInt (s : JsString) : Option ℤ :=
  match trim s with
  | [] => some 0
  | u :: t =>
    if u = plus then (natOf 10 t).map (↑)
    else if u = minus then (natOf 10 t).map fun n => -(n : ℤ)
    else if u = zero ∧ t.head?.any fun v => v = 0x78 || v = 0x58 then (natOf 16 t.tail).map (↑)
    else if u = zero ∧ t.head?.any fun v => v = 0x6F || v = 0x4F then (natOf 8 t.tail).map (↑)
    else if u = zero ∧ t.head?.any fun v => v = 0x62 || v = 0x42 then (natOf 2 t.tail).map (↑)
    else (natOf 10 (u :: t)).map (↑)

/-- `BigInt(x)`. What has no primitive value of its own is converted to a string first. -/
def toBigInt : Json → Option ℤ
  | .null => none
  | .bool b => some (if b then 1 else 0)
  | .number negative c e => (JsNumber.ofDecimal negative c e).toBigInt
  | .string s => stringToBigInt s
  | .array vs => (join vs).bind stringToBigInt
  | .object ms => (toStr (.object ms)).bind stringToBigInt

example : stringToBigInt (JsString.ofString " -12 ") = some (-12) ∧
    stringToBigInt (JsString.ofString "0xfF") = some 255 ∧
    stringToBigInt (JsString.ofString "1.0") = none := by decide

/-! ## `JSON.stringify` -/

/-- A hexadecimal digit. -/
def hexChar (n : ℕ) : UInt16 := (if n < 10 then 0x30 + n else 0x57 + n).toUInt16

/-- `UnicodeEscape`. -/
def unicodeEscape (u : UInt16) : JsString :=
  [escape, 0x75, hexChar (u.toNat / 0x1000), hexChar (u.toNat / 0x100 % 0x10),
    hexChar (u.toNat / 0x10 % 0x10), hexChar (u.toNat % 0x10)]

/-- A code unit that is not a surrogate, as it is written in a string. -/
def escapeUnit (u : UInt16) : JsString :=
  if u = 0x08 then [escape, 0x62]
  else if u = 0x09 then [escape, 0x74]
  else if u = 0x0A then [escape, 0x6E]
  else if u = 0x0C then [escape, 0x66]
  else if u = 0x0D then [escape, 0x72]
  else if u = quotationMark ∨ u = escape then [escape, u]
  else if u < 0x20 then unicodeEscape u
  else [u]

/-- The characters of `QuoteJSONString`. A lone surrogate is escaped. -/
def quoteChars : JsString → JsString
  | [] => []
  | u :: us =>
    if u.toNat < 0xD800 ∨ 0xDFFF < u.toNat then escapeUnit u ++ quoteChars us
    else
      match us with
      | [] => unicodeEscape u
      | v :: vs =>
        if u.toNat ≤ 0xDBFF ∧ 0xDC00 ≤ v.toNat ∧ v.toNat ≤ 0xDFFF then u :: v :: quoteChars vs
        else unicodeEscape u ++ quoteChars (v :: vs)

/-- `QuoteJSONString`. -/
def quote (s : JsString) : JsString := quotationMark :: quoteChars s ++ [quotationMark]

/-- The index that a name is, if it is one. -/
def arrayIndex (k : JsString) : Option ℕ :=
  if k = [zero] ∨ k.head? ≠ some zero then (natOf 10 k).filter (· < 2 ^ 32 - 1) else none

/-- A property is set: in its place, or after the others. -/
def setProperty {α : Type} (ps : List (JsString × α)) (p : JsString × α) : List (JsString × α) :=
  if ps.any fun p' => p'.1 = p.1 then ps.map fun p' => if p'.1 = p.1 then p else p' else ps ++ [p]

/-- The properties of an object, in the order of `OrdinaryOwnPropertyKeys`: the indices first. -/
def ownProperties {α : Type} (ms : List (JsString × α)) : List (JsString × α) :=
  let ps := ms.foldl setProperty []
  (ps.filter fun p => (arrayIndex p.1).isSome).insertionSort
      (fun p q => (arrayIndex p.1).getD 0 ≤ (arrayIndex q.1).getD 0) ++
    ps.filter fun p => (arrayIndex p.1).isNone

/-- Texts with commas between them. -/
def commaSeparated (ts : List JsString) : JsString := [valueSeparator].intercalate ts

mutual

/-- `JSON.stringify(x)`. -/
def stringify : Json → JsString
  | .null => JsString.ofString "null"
  | .bool b => JsString.ofString (if b then "true" else "false")
  | .number negative c e =>
    match JsNumber.ofDecimal negative c e with
    | .finite q => (JsNumber.finite q).toString
    | .infinity _ => JsString.ofString "null"
  | .string s => quote s
  | .array vs => beginArray :: commaSeparated (stringifyElems vs) ++ [endArray]
  | .object ms =>
    beginObject :: commaSeparated ((ownProperties (stringifyMembers ms)).map fun p =>
      quote p.1 ++ nameSeparator :: p.2) ++ [endObject]

/-- The texts of the elements of an array. -/
def stringifyElems : List Json → List JsString
  | [] => []
  | v :: vs => stringify v :: stringifyElems vs

/-- The names of an object's members, and the texts of their values. -/
def stringifyMembers : List (JsString × Json) → List (JsString × JsString)
  | [] => []
  | (k, v) :: ms => (k, stringify v) :: stringifyMembers ms

end

example : (parse (JsString.ofString
      "\x7b\"b\": [1e400, -0.0], \"10\": \"\\n\", \"9\": true, \"b\": null\x7d")).map stringify =
    some (JsString.ofString "\x7b\"9\":true,\"10\":\"\\n\",\"b\":null\x7d") := by decide +kernel

end Json
