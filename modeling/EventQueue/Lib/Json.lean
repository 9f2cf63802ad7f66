import EventQueue.Lib.JsString
import Mathlib.Data.List.TakeWhile

/-!
# JSON texts

The grammar of RFC 8259 over UTF-16 code units, and the parser that goes with it. `Value t v` says
that the text `t` is one of the value `v`, production by production; `Text` allows white space
around it. `parse` reads a text from the front, with a bound on its nesting.

`parse_eq_some_iff` is that the parser finds the value of every text and nothing else, so a text has
one value. A number is kept as the decimal number that it denotes, and an object as its members in
order, also when two have one name.
-/

/-- A JSON value. -/
inductive Json
  | null
  | bool (b : Bool)
  /-- The number `± coefficient · 10 ^ exponent`. -/
  | number (negative : Bool) (coefficient : ℕ) (exponent : ℤ)
  | string (s : JsString)
  | array (elems : List Json)
  | object (members : List (JsString × Json))
deriving Repr

namespace Json

/-! ## Code units -/

/-- `"` -/
abbrev quotationMark : UInt16 := 0x22
/-- `\` -/
abbrev escape : UInt16 := 0x5C
/-- `[` -/
abbrev beginArray : UInt16 := 0x5B
/-- `]` -/
abbrev endArray : UInt16 := 0x5D
/-- `{` -/
abbrev beginObject : UInt16 := 0x7B
/-- `}` -/
abbrev endObject : UInt16 := 0x7D
/-- `:` -/
abbrev nameSeparator : UInt16 := 0x3A
/-- `,` -/
abbrev valueSeparator : UInt16 := 0x2C
/-- `-` -/
abbrev minus : UInt16 := 0x2D
/-- `+` -/
abbrev plus : UInt16 := 0x2B
/-- `.` -/
abbrev decimalPoint : UInt16 := 0x2E
/-- `0` -/
abbrev zero : UInt16 := 0x30

/-- White space: space, tab, line feed, or carriage return. -/
def isWs (u : UInt16) : Bool := u = 0x20 || u = 0x09 || u = 0x0A || u = 0x0D

/-- A decimal digit. -/
def isDigit (u : UInt16) : Bool := 0x30 ≤ u && u ≤ 0x39

/-- `e` or `E`. -/
def isE (u : UInt16) : Bool := u = 0x65 || u = 0x45

/-- The value of a hexadecimal digit. -/
def hexDigit (u : UInt16) : Option UInt16 :=
  if 0x30 ≤ u ∧ u ≤ 0x39 then some (u - 0x30)
  else if 0x41 ≤ u ∧ u ≤ 0x46 then some (u - 0x37)
  else if 0x61 ≤ u ∧ u ≤ 0x66 then some (u - 0x57)
  else none

/-- The code unit of four hexadecimal digits. -/
def hex4 (a b c d : UInt16) : Option UInt16 := do
  return (← hexDigit a) * 0x1000 + (← hexDigit b) * 0x100 + (← hexDigit c) * 0x10 + (← hexDigit d)

/-- What a single character stands for after a backslash. -/
def escaped (u : UInt16) : Option UInt16 :=
  if u = 0x22 ∨ u = 0x5C ∨ u = 0x2F then some u
  else if u = 0x62 then some 0x08
  else if u = 0x66 then some 0x0C
  else if u = 0x6E then some 0x0A
  else if u = 0x72 then some 0x0D
  else if u = 0x74 then some 0x09
  else none

/-- A code unit that stands for itself in a string. -/
def unescaped (u : UInt16) : Bool := u ≠ quotationMark && u ≠ escape && 0x20 ≤ u

/-- The number that decimal digits denote. -/
def ofDigits (ds : JsString) : ℕ := ds.foldl (fun n d => n * 10 + (d.toNat - 0x30)) 0

/-! ## Grammar -/

/-- White space, or none. -/
def Ws (t : JsString) : Prop := ∀ u ∈ t, isWs u = true

/-- One or more digits. -/
def Digits (t : JsString) : Prop := t ≠ [] ∧ ∀ u ∈ t, isDigit u = true

/-- `int`: a zero, or digits that do not start with one. -/
inductive IntPart : JsString → Prop
  | zero : IntPart [zero]
  | digits (t : JsString) (ht : Digits t) (hhead : t.head? ≠ some zero) : IntPart t

/-- `[ frac ]`, with its digits. -/
inductive FracPart : JsString → JsString → Prop
  | absent : FracPart [] []
  | digits (ds : JsString) (hds : Digits ds) : FracPart (decimalPoint :: ds) ds

/-- `[ exp ]`, with its value. -/
inductive ExpPart : JsString → ℤ → Prop
  | absent : ExpPart [] 0
  | bare (e : UInt16) (ds : JsString) (he : isE e = true) (hds : Digits ds) :
      ExpPart (e :: ds) (ofDigits ds)
  | plus (e : UInt16) (ds : JsString) (he : isE e = true) (hds : Digits ds) :
      ExpPart (e :: plus :: ds) (ofDigits ds)
  | minus (e : UInt16) (ds : JsString) (he : isE e = true) (hds : Digits ds) :
      ExpPart (e :: minus :: ds) (-(ofDigits ds : ℤ))

/-- The characters of a string between its quotation marks, and the string. -/
inductive Chars : JsString → JsString → Prop
  | nil : Chars [] []
  | unescaped (u : UInt16) (t s : JsString) (hu : unescaped u = true) (ht : Chars t s) :
      Chars (u :: t) (u :: s)
  | escaped (e u : UInt16) (t s : JsString) (he : escaped e = some u) (ht : Chars t s) :
      Chars (escape :: e :: t) (u :: s)
  | unicode (a b c d u : UInt16) (t s : JsString) (hu : hex4 a b c d = some u) (ht : Chars t s) :
      Chars (escape :: 0x75 :: a :: b :: c :: d :: t) (u :: s)

/-- Items with white space around them and commas between them. -/
inductive SepBy {α : Type} (item : JsString → α → Prop) : JsString → List α → Prop
  | one (w t w' : JsString) (a : α) (hw : Ws w) (ht : item t a) (hw' : Ws w') :
      SepBy item (w ++ t ++ w') [a]
  | more (w t w' ts : JsString) (a : α) (as : List α) (hw : Ws w) (ht : item t a) (hw' : Ws w')
      (hts : SepBy item ts as) : SepBy item (w ++ t ++ w' ++ valueSeparator :: ts) (a :: as)

/-- `member`: a name and a value. -/
inductive Member (value : JsString → Json → Prop) : JsString → JsString × Json → Prop
  | mk (t k w w' t' : JsString) (v : Json) (hk : Chars t k) (hw : Ws w) (hw' : Ws w')
      (hv : value t' v) :
      Member value (quotationMark :: t ++ [quotationMark] ++ w ++ nameSeparator :: w' ++ t') (k, v)

/-- `value`. -/
inductive Value : JsString → Json → Prop
  | literalNull : Value (JsString.ofString "null") .null
  | literalTrue : Value (JsString.ofString "true") (.bool true)
  | literalFalse : Value (JsString.ofString "false") (.bool false)
  | number (negative : Bool) (i f ds e : JsString) (n : ℤ) (hi : IntPart i) (hf : FracPart f ds)
      (he : ExpPart e n) :
      Value ((if negative then [minus] else []) ++ i ++ f ++ e)
        (.number negative (ofDigits (i ++ ds)) (n - ds.length))
  | string (t s : JsString) (ht : Chars t s) :
      Value (quotationMark :: t ++ [quotationMark]) (.string s)
  | emptyArray (w : JsString) (hw : Ws w) : Value (beginArray :: w ++ [endArray]) (.array [])
  | array (t : JsString) (vs : List Json) (ht : SepBy Value t vs) :
      Value (beginArray :: t ++ [endArray]) (.array vs)
  | emptyObject (w : JsString) (hw : Ws w) : Value (beginObject :: w ++ [endObject]) (.object [])
  | object (t : JsString) (ms : List (JsString × Json)) (ht : SepBy (Member Value) t ms) :
      Value (beginObject :: t ++ [endObject]) (.object ms)

/-- `JSON-text`: a value with white space around it. -/
def Text (t : JsString) (v : Json) : Prop :=
  ∃ w t' w', t = w ++ t' ++ w' ∧ Ws w ∧ Ws w' ∧ Value t' v

/-! ## Parser -/

/-- What reads something off the front of a text. -/
abbrev Parser (α : Type) := JsString → Option (α × JsString)

/-- The text after its white space. -/
def skipWs (s : JsString) : JsString := s.dropWhile isWs

/-- The digits at the front, at least one. -/
def readDigits : Parser JsString := fun s =>
  let ds := s.takeWhile isDigit
  if ds.isEmpty then none else some (ds, s.dropWhile isDigit)

/-- `int`. -/
def readInt : Parser JsString := fun s =>
  match s with
  | [] => none
  | u :: t => if u = zero then some ([zero], t) else readDigits (u :: t)

/-- `[ frac ]`. -/
def readFrac : Parser JsString := fun s =>
  match s with
  | [] => some ([], [])
  | u :: t => if u = decimalPoint then readDigits t else some ([], u :: t)

/-- `[ exp ]`. -/
def readExp : Parser ℤ := fun s =>
  match s with
  | [] => some (0, [])
  | u :: t =>
    if isE u then
      match t with
      | [] => none
      | v :: t =>
        if v = minus then (readDigits t).map fun p => (-(ofDigits p.1 : ℤ), p.2)
        else if v = plus then (readDigits t).map fun p => ((ofDigits p.1 : ℤ), p.2)
        else (readDigits (v :: t)).map fun p => ((ofDigits p.1 : ℤ), p.2)
    else some (0, u :: t)

/-- `number` after its sign. -/
def readUnsigned (negative : Bool) : Parser Json := fun s => do
  let (i, s) ← readInt s
  let (ds, s) ← readFrac s
  let (n, s) ← readExp s
  return (.number negative (ofDigits (i ++ ds)) (n - ds.length), s)

/-- `number`. -/
def readNumber : Parser Json := fun s =>
  match s with
  | [] => none
  | u :: t => if u = minus then readUnsigned true t else readUnsigned false (u :: t)

/-- The characters of a string, up to its closing quotation mark. -/
def readChars : Parser JsString
  | [] => none
  | u :: t =>
    if u = quotationMark then some ([], t)
    else if u = escape then
      match t with
      | [] => none
      | e :: t =>
        if e = 0x75 then
          match t with
          | a :: b :: c :: d :: t => do
            let u ← hex4 a b c d
            let (s, t) ← readChars t
            return (u :: s, t)
          | _ => none
        else do
          let u ← escaped e
          let (s, t) ← readChars t
          return (u :: s, t)
    else if unescaped u then (readChars t).map fun p => (u :: p.1, p.2)
    else none

/-- Items with white space around them and commas between them, up to the closing bracket. -/
def readSepBy {α : Type} (item : Parser α) (close : UInt16) : ℕ → Parser (List α)
  | 0, _ => none
  | fuel + 1, s =>
    (item (skipWs s)).bind fun p =>
      match skipWs p.2 with
      | [] => none
      | u :: t =>
        if u = close then some ([p.1], t)
        else if u = valueSeparator then
          (readSepBy item close fuel t).map fun q => (p.1 :: q.1, q.2)
        else none

/-- Any number of items, up to the closing bracket. -/
def readList {α : Type} (item : Parser α) (close : UInt16) (fuel : ℕ) : Parser (List α) := fun s =>
  match skipWs s with
  | [] => none
  | u :: t => if u = close then some ([], t) else readSepBy item close fuel (u :: t)

/-- `member`. -/
def readMember (value : Parser Json) : Parser (JsString × Json) := fun s =>
  match s with
  | [] => none
  | u :: t =>
    if u = quotationMark then
      (readChars t).bind fun p =>
        match skipWs p.2 with
        | [] => none
        | u :: t =>
          if u = nameSeparator then (value (skipWs t)).map fun q => ((p.1, q.1), q.2) else none
    else none

/-- A literal name. -/
def readLiteral (name : JsString) (v : Json) : Parser Json := fun s =>
  if name.isPrefixOf s then some (v, s.drop name.length) else none

/-- `value`, nested less deeply than a bound. -/
def readValue : ℕ → Parser Json
  | 0, _ => none
  | _, [] => none
  | fuel + 1, u :: t =>
    if u = quotationMark then (readChars t).map fun p => (.string p.1, p.2)
    else if u = beginArray then
      (readList (readValue fuel) endArray fuel t).map fun p => (.array p.1, p.2)
    else if u = beginObject then
      (readList (readMember (readValue fuel)) endObject fuel t).map fun p => (.object p.1, p.2)
    else if u = 0x6E then readLiteral (JsString.ofString "null") .null (u :: t)
    else if u = 0x74 then readLiteral (JsString.ofString "true") (.bool true) (u :: t)
    else if u = 0x66 then readLiteral (JsString.ofString "false") (.bool false) (u :: t)
    else readNumber (u :: t)

/-- The value of a text. -/
def parse (s : JsString) : Option Json :=
  match readValue (s.length + 1) (skipWs s) with
  | none => none
  | some (v, rest) => if (skipWs rest).isEmpty then some v else none

example :
    (parse (JsString.ofString " [1, -2.5e3, \x7b\"a\": \"\\u0041\\n\"\x7d, null] ")).isSome = true ∧
      (parse (JsString.ofString "[1,]")).isNone = true := by decide +kernel

/-! ## What is read is of the grammar -/

variable {s r t : JsString} {fuel : ℕ}

/-- White space is skipped. -/
theorem exists_ws (s : JsString) : ∃ w, Ws w ∧ s = w ++ skipWs s :=
  ⟨s.takeWhile isWs, fun _ hu => List.mem_takeWhile_imp hu, List.takeWhile_append_dropWhile.symm⟩

theorem readDigits_sound {ds : JsString} (h : readDigits s = some (ds, r)) :
    s = ds ++ r ∧ Digits ds := by
  unfold readDigits at h
  dsimp only at h
  split_ifs at h with hempty
  obtain ⟨rfl, rfl⟩ := Prod.mk.inj (Option.some.inj h)
  exact ⟨List.takeWhile_append_dropWhile.symm, fun hnil => hempty (by rw [hnil]; rfl),
    fun _ hu => List.mem_takeWhile_imp hu⟩

theorem readInt_sound {i : JsString} (h : readInt s = some (i, r)) : s = i ++ r ∧ IntPart i := by
  cases s with
  | nil => cases h
  | cons u t =>
    simp only [readInt] at h
    split_ifs at h with hzero
    · obtain ⟨rfl, rfl⟩ := Prod.mk.inj (Option.some.inj h)
      exact ⟨by rw [hzero]; rfl, .zero⟩
    · obtain ⟨heq, hdigits⟩ := readDigits_sound h
      refine ⟨heq, .digits i hdigits fun hhead => hzero ?_⟩
      -- The first of the digits is the first of the text.
      cases i with
      | nil => cases hhead
      | cons d i => exact (List.cons.inj heq).1.trans (Option.some.inj hhead)

theorem readFrac_sound {ds : JsString} (h : readFrac s = some (ds, r)) :
    ∃ f, s = f ++ r ∧ FracPart f ds := by
  cases s with
  | nil =>
    obtain ⟨rfl, rfl⟩ := Prod.mk.inj (Option.some.inj h)
    exact ⟨[], rfl, .absent⟩
  | cons u t =>
    simp only [readFrac] at h
    split_ifs at h with hpoint
    · obtain ⟨rfl, hdigits⟩ := readDigits_sound h
      exact ⟨decimalPoint :: ds, by rw [hpoint]; rfl, .digits ds hdigits⟩
    · obtain ⟨rfl, rfl⟩ := Prod.mk.inj (Option.some.inj h)
      exact ⟨[], rfl, .absent⟩

theorem readExp_sound {n : ℤ} (h : readExp s = some (n, r)) : ∃ e, s = e ++ r ∧ ExpPart e n := by
  have hmap : ∀ {f : ℕ → ℤ} {t : JsString},
      (readDigits t).map (fun p => (f (ofDigits p.1), p.2)) = some (n, r) →
        ∃ ds, t = ds ++ r ∧ Digits ds ∧ n = f (ofDigits ds) := by
    intro f t hread
    obtain ⟨⟨ds, r'⟩, hdigits, heq⟩ := Option.map_eq_some_iff.mp hread
    obtain ⟨rfl, rfl⟩ := Prod.mk.inj heq
    obtain ⟨hsplit, hds⟩ := readDigits_sound hdigits
    exact ⟨ds, hsplit, hds, rfl⟩
  cases s with
  | nil =>
    obtain ⟨rfl, rfl⟩ := Prod.mk.inj (Option.some.inj h)
    exact ⟨[], rfl, .absent⟩
  | cons u t =>
    simp only [readExp] at h
    split_ifs at h with hE
    · cases t with
      | nil => cases h
      | cons v t =>
        dsimp only at h
        split_ifs at h with hminus hplus
        · obtain ⟨ds, rfl, hds, rfl⟩ := hmap (f := fun n => -(n : ℤ)) h
          exact ⟨u :: v :: ds, rfl, by rw [hminus]; exact .minus u ds hE hds⟩
        · obtain ⟨ds, rfl, hds, rfl⟩ := hmap (f := fun n => (n : ℤ)) h
          exact ⟨u :: v :: ds, rfl, by rw [hplus]; exact .plus u ds hE hds⟩
        · obtain ⟨ds, heq, hds, rfl⟩ := hmap (f := fun n => (n : ℤ)) h
          exact ⟨u :: ds, by rw [heq]; rfl, .bare u ds hE hds⟩
    · obtain ⟨rfl, rfl⟩ := Prod.mk.inj (Option.some.inj h)
      exact ⟨[], rfl, .absent⟩

theorem readUnsigned_sound {negative : Bool} {v : Json}
    (h : readUnsigned negative s = some (v, r)) :
    ∃ t, s = t ++ r ∧ Value ((if negative then [minus] else []) ++ t) v := by
  simp only [readUnsigned, Option.bind_eq_bind, Option.bind_eq_some_iff] at h
  obtain ⟨⟨i, s₁⟩, hi, ⟨ds, s₂⟩, hf, ⟨n, s₃⟩, he, heq⟩ := h
  obtain ⟨rfl, rfl⟩ := Prod.mk.inj (Option.some.inj heq)
  obtain ⟨rfl, hint⟩ := readInt_sound hi
  obtain ⟨f, rfl, hfrac⟩ := readFrac_sound hf
  obtain ⟨e, rfl, hexp⟩ := readExp_sound he
  refine ⟨i ++ f ++ e, by simp, ?_⟩
  have hvalue := Value.number negative i f ds e n hint hfrac hexp
  rwa [List.append_assoc, List.append_assoc, ← List.append_assoc i] at hvalue

theorem readNumber_sound {v : Json} (h : readNumber s = some (v, r)) :
    ∃ t, s = t ++ r ∧ Value t v := by
  cases s with
  | nil => cases h
  | cons u t =>
    simp only [readNumber] at h
    split_ifs at h with hminus
    · obtain ⟨t, rfl, hvalue⟩ := readUnsigned_sound h
      exact ⟨minus :: t, by rw [hminus]; rfl, hvalue⟩
    · exact readUnsigned_sound h

section ReadChars

variable {u e : UInt16}

theorem readChars_quotationMark (t : JsString) : readChars (quotationMark :: t) = some ([], t) := by
  rw [readChars.eq_def]
  rfl

theorem readChars_unicode (a b c d : UInt16) (t : JsString) :
    readChars (escape :: 0x75 :: a :: b :: c :: d :: t) =
      (hex4 a b c d).bind fun u => (readChars t).map fun p => (u :: p.1, p.2) := by
  rw [readChars.eq_def]
  simp only [if_neg (show ¬escape = quotationMark by decide), if_true]
  cases hex4 a b c d with
  | none => rfl
  | some u => cases readChars t <;> rfl

theorem readChars_escaped (he : e ≠ 0x75) (t : JsString) :
    readChars (escape :: e :: t) =
      (escaped e).bind fun u => (readChars t).map fun p => (u :: p.1, p.2) := by
  rw [readChars.eq_def]
  simp only [if_neg (show ¬escape = quotationMark by decide), if_true, if_neg he]
  cases escaped e with
  | none => rfl
  | some u => cases readChars t <;> rfl

theorem readChars_unescaped (hu : unescaped u = true) (t : JsString) :
    readChars (u :: t) = (readChars t).map fun p => (u :: p.1, p.2) := by
  have hne : u ≠ quotationMark ∧ u ≠ escape := by
    simp only [unescaped, Bool.and_eq_true, decide_eq_true_eq] at hu
    exact hu.1
  rw [readChars.eq_def]
  simp only [if_neg hne.1, if_neg hne.2, if_pos hu]

/-- A character is put before what is read after it. -/
theorem map_cons_eq_some {x : Option (JsString × JsString)} {a b : JsString}
    (h : (x.map fun p => (u :: p.1, p.2)) = some (a, b)) : ∃ s, x = some (s, b) ∧ a = u :: s := by
  obtain ⟨⟨s, _⟩, hx, heq⟩ := Option.map_eq_some_iff.1 h
  obtain ⟨rfl, rfl⟩ := Prod.mk.inj heq
  exact ⟨s, hx, rfl⟩

/-- So is the character that an escape stands for. -/
theorem bind_cons_eq_some {c : Option UInt16} {x : Option (JsString × JsString)} {a b : JsString}
    (h : (c.bind fun u => x.map fun p => (u :: p.1, p.2)) = some (a, b)) :
    ∃ u s, c = some u ∧ x = some (s, b) ∧ a = u :: s := by
  obtain ⟨u, hu, hx⟩ := Option.bind_eq_some_iff.1 h
  obtain ⟨s, hs, ha⟩ := map_cons_eq_some hx
  exact ⟨u, s, hu, hs, ha⟩

end ReadChars

theorem readChars_sound {a : JsString} (h : readChars s = some (a, r)) :
    ∃ t, s = t ++ quotationMark :: r ∧ Chars t a := by
  induction s using readChars.induct generalizing a with
  | case1 => cases h
  | case2 t =>
    rw [readChars_quotationMark] at h
    obtain ⟨rfl, rfl⟩ := Prod.mk.inj (Option.some.inj h)
    exact ⟨[], rfl, .nil⟩
  | case3 => cases h
  | case4 x y z w t _ ih =>
    rw [readChars_unicode] at h
    obtain ⟨u, a, hu, ha, rfl⟩ := bind_cons_eq_some h
    obtain ⟨t, rfl, hchars⟩ := ih ha
    exact ⟨_, rfl, .unicode x y z w u t a hu hchars⟩
  | case5 t hshort =>
    -- Fewer than four characters after `\u`.
    rw [readChars.eq_def] at h
    simp only [if_neg (show ¬escape = quotationMark by decide), if_true] at h
    cases h
  | case6 e t he _ ih =>
    rw [readChars_escaped he] at h
    obtain ⟨u, a, hu, ha, rfl⟩ := bind_cons_eq_some h
    obtain ⟨t, rfl, hchars⟩ := ih ha
    exact ⟨_, rfl, .escaped e u t a hu hchars⟩
  | case7 u t _ _ hu ih =>
    rw [readChars_unescaped hu] at h
    obtain ⟨a, ha, rfl⟩ := map_cons_eq_some h
    obtain ⟨t, rfl, hchars⟩ := ih ha
    exact ⟨_, rfl, .unescaped u t a hu hchars⟩
  | case8 u t hquote hescape hu =>
    rw [readChars.eq_def] at h
    simp only [if_neg hquote, if_neg hescape, if_neg hu] at h
    cases h

/-- A parser reads only texts of the grammar. -/
def Sound {α : Type} (p : Parser α) (g : JsString → α → Prop) : Prop :=
  ∀ s a r, p s = some (a, r) → ∃ t, s = t ++ r ∧ g t a

section Lists

variable {α : Type} {item : Parser α} {g : JsString → α → Prop} {close : UInt16}

theorem readSepBy_sound (h : Sound item g) {as : List α}
    (hread : readSepBy item close fuel s = some (as, r)) :
    ∃ t, s = t ++ close :: r ∧ SepBy g t as := by
  induction fuel generalizing s as with
  | zero => cases hread
  | succ fuel ih =>
    obtain ⟨w, hw, hs⟩ := exists_ws s
    obtain ⟨⟨a, s₁⟩, hitem, hrest⟩ := Option.bind_eq_some_iff.mp hread
    obtain ⟨t, ht, hg⟩ := h _ _ _ hitem
    obtain ⟨w', hw', hs₁⟩ := exists_ws s₁
    cases hskip : skipWs s₁ with
    | nil => simp [hskip] at hrest
    | cons u s₂ =>
      simp only [hskip] at hrest
      rw [hs, ht, hs₁, hskip]
      split_ifs at hrest with hclose hcomma
      · -- the last item
        obtain ⟨rfl, rfl⟩ := Prod.mk.inj (Option.some.inj hrest)
        exact ⟨w ++ t ++ w', by simp [hclose], .one w t w' a hw hg hw'⟩
      · obtain ⟨⟨as, r⟩, has, heq⟩ := Option.map_eq_some_iff.mp hrest
        obtain ⟨rfl, rfl⟩ := Prod.mk.inj heq
        obtain ⟨ts, rfl, hts⟩ := ih has
        exact ⟨w ++ t ++ w' ++ valueSeparator :: ts, by simp [hcomma],
          .more w t w' ts a as hw hg hw' hts⟩

theorem readList_sound (h : Sound item g) {as : List α}
    (hread : readList item close fuel s = some (as, r)) :
    ∃ t, s = t ++ close :: r ∧ (Ws t ∧ as = [] ∨ SepBy g t as) := by
  obtain ⟨w, hw, hs⟩ := exists_ws s
  unfold readList at hread
  cases hskip : skipWs s with
  | nil => simp [hskip] at hread
  | cons u s₁ =>
    simp only [hskip] at hread
    split_ifs at hread with hclose
    · obtain ⟨rfl, rfl⟩ := Prod.mk.inj (Option.some.inj hread)
      exact ⟨w, by rw [← hclose, ← hskip]; exact hs, .inl ⟨hw, rfl⟩⟩
    · obtain ⟨t, ht, hsep⟩ := readSepBy_sound h hread
      refine ⟨w ++ t, by rw [List.append_assoc, ← ht, ← hskip]; exact hs, .inr ?_⟩
      -- White space before the first item belongs to it.
      have hws : ∀ w₁, Ws w₁ → Ws (w ++ w₁) := fun w₁ hw₁ u hu =>
        (List.mem_append.mp hu).elim (hw u) (hw₁ u)
      cases hsep with
      | one w₁ t₁ w₂ a hw₁ ht₁ hw₂ =>
        simpa using SepBy.one (w ++ w₁) t₁ w₂ a (hws w₁ hw₁) ht₁ hw₂
      | more w₁ t₁ w₂ ts a as hw₁ ht₁ hw₂ hts =>
        simpa using SepBy.more (w ++ w₁) t₁ w₂ ts a as (hws w₁ hw₁) ht₁ hw₂ hts

end Lists

theorem readMember_sound {value : Parser Json} (h : Sound value Value) :
    Sound (readMember value) (Member Value) := by
  intro s m r hread
  cases s with
  | nil => cases hread
  | cons u s =>
    simp only [readMember] at hread
    split_ifs at hread with hquote
    obtain ⟨⟨k, s₁⟩, hchars, hrest⟩ := Option.bind_eq_some_iff.mp hread
    obtain ⟨t, rfl, hk⟩ := readChars_sound hchars
    obtain ⟨w, hw, hs₁⟩ := exists_ws s₁
    cases hskip : skipWs s₁ with
    | nil => simp [hskip] at hrest
    | cons c s₂ =>
      simp only [hskip] at hrest
      split_ifs at hrest with hcolon
      obtain ⟨⟨v, r'⟩, hvalue, heq⟩ := Option.map_eq_some_iff.mp hrest
      obtain ⟨rfl, rfl⟩ := Prod.mk.inj heq
      obtain ⟨w', hw', hs₂⟩ := exists_ws s₂
      obtain ⟨t', ht', hv⟩ := h _ _ _ hvalue
      refine ⟨_, ?_, .mk t k w w' t' v hk hw hw' hv⟩
      rw [hs₁, hskip, hs₂, ht', hquote, hcolon]
      simp

theorem readLiteral_sound {name : JsString} {v v' : Json}
    (h : readLiteral name v s = some (v', r)) :
    s = name ++ r ∧ v' = v := by
  unfold readLiteral at h
  split_ifs at h with hprefix
  obtain ⟨rfl, rfl⟩ := Prod.mk.inj (Option.some.inj h)
  obtain ⟨rest, rfl⟩ := List.isPrefixOf_iff_prefix.mp hprefix
  exact ⟨by rw [List.drop_left], rfl⟩

/-- What is read as a value is one. -/
theorem readValue_sound (fuel : ℕ) : Sound (readValue fuel) Value := by
  induction fuel with
  | zero =>
    intro s v r h
    cases h
  | succ fuel ih =>
    intro s v r h
    cases s with
    | nil => cases h
    | cons u s =>
      simp only [readValue] at h
      split_ifs at h with hstring harray hobject hnull htrue hfalse
      · obtain ⟨⟨a, r⟩, hchars, heq⟩ := Option.map_eq_some_iff.mp h
        obtain ⟨rfl, rfl⟩ := Prod.mk.inj heq
        obtain ⟨t, rfl, ht⟩ := readChars_sound hchars
        exact ⟨_, by rw [hstring]; simp, .string t a ht⟩
      · obtain ⟨⟨as, r⟩, hlist, heq⟩ := Option.map_eq_some_iff.mp h
        obtain ⟨rfl, rfl⟩ := Prod.mk.inj heq
        obtain ⟨t, rfl, ⟨hw, rfl⟩ | ht⟩ := readList_sound ih hlist
        · exact ⟨_, by rw [harray]; simp, .emptyArray t hw⟩
        · exact ⟨_, by rw [harray]; simp, .array t as ht⟩
      · obtain ⟨⟨ms, r⟩, hlist, heq⟩ := Option.map_eq_some_iff.mp h
        obtain ⟨rfl, rfl⟩ := Prod.mk.inj heq
        obtain ⟨t, rfl, ⟨hw, rfl⟩ | ht⟩ := readList_sound (readMember_sound ih) hlist
        · exact ⟨_, by rw [hobject]; simp, .emptyObject t hw⟩
        · exact ⟨_, by rw [hobject]; simp, .object t ms ht⟩
      · obtain ⟨heq, rfl⟩ := readLiteral_sound h
        exact ⟨_, heq, .literalNull⟩
      · obtain ⟨heq, rfl⟩ := readLiteral_sound h
        exact ⟨_, heq, .literalTrue⟩
      · obtain ⟨heq, rfl⟩ := readLiteral_sound h
        exact ⟨_, heq, .literalFalse⟩
      · exact readNumber_sound h

/-- What is parsed is a text. -/
theorem text_of_parse {v : Json} (h : parse s = some v) : Text s v := by
  obtain ⟨w, hw, hs⟩ := exists_ws s
  unfold parse at h
  cases hread : readValue (s.length + 1) (skipWs s) with
  | none => simp [hread] at h
  | some p =>
    obtain ⟨v', rest⟩ := p
    simp only [hread] at h
    split_ifs at h with hempty
    obtain rfl := Option.some.inj h
    obtain ⟨t, ht, hvalue⟩ := readValue_sound _ _ _ _ hread
    obtain ⟨w', hw', hrest⟩ := exists_ws rest
    rw [List.isEmpty_iff.mp hempty, List.append_nil] at hrest
    refine ⟨w, t, w', ?_, hw, hw', hvalue⟩
    rw [List.append_assoc, ← hrest, ← ht]
    exact hs

/-! ## What is of the grammar is read -/

/-- The text does not go on with a digit. -/
def NoDigit (s : JsString) : Prop := ∀ u ∈ s.head?, isDigit u = false

/-- The text does not go on as a number would. -/
def Follow (s : JsString) : Prop :=
  ∀ u ∈ s.head?, isDigit u = false ∧ u ≠ decimalPoint ∧ isE u = false

theorem Follow.noDigit (h : Follow s) : NoDigit s := fun u hu => (h u hu).1

theorem follow_nil : Follow [] := fun u hu => by cases hu

theorem follow_cons {u : UInt16} (h : isDigit u = false ∧ u ≠ decimalPoint ∧ isE u = false)
    (s : JsString) : Follow (u :: s) := by
  intro v hv
  obtain rfl := Option.some.inj hv
  exact h

/-- White space at the front is skipped as a whole. -/
theorem skipWs_append {w : JsString} (hw : Ws w) (hs : ∀ u ∈ s.head?, isWs u = false) :
    skipWs (w ++ s) = s := by
  unfold skipWs
  rw [List.dropWhile_append_of_pos hw]
  cases s with
  | nil => rfl
  | cons u s => exact List.dropWhile_cons_of_neg (by simp [hs u rfl])

theorem readDigits_complete {ds : JsString} (hds : Digits ds) (hr : NoDigit r) :
    readDigits (ds ++ r) = some (ds, r) := by
  have htake : (ds ++ r).takeWhile isDigit = ds := by
    rw [List.takeWhile_append_of_pos hds.2]
    cases r with
    | nil => simp
    | cons u r => rw [List.takeWhile_cons_of_neg (by simp [hr u rfl]), List.append_nil]
  have hdrop : (ds ++ r).dropWhile isDigit = r := by
    rw [List.dropWhile_append_of_pos hds.2]
    cases r with
    | nil => rfl
    | cons u r => exact List.dropWhile_cons_of_neg (by simp [hr u rfl])
  unfold readDigits
  dsimp only
  rw [htake, hdrop, if_neg (by simpa using hds.1)]

/-- A digit at the head of digits. -/
theorem Digits.exists_cons {ds : JsString} (h : Digits ds) :
    ∃ d ds', ds = d :: ds' ∧ isDigit d = true := by
  obtain ⟨d, ds', rfl⟩ := List.exists_cons_of_ne_nil h.1
  exact ⟨d, ds', rfl, h.2 d List.mem_cons_self⟩

theorem readInt_complete {i : JsString} (hi : IntPart i) (hr : NoDigit r) :
    readInt (i ++ r) = some (i, r) := by
  cases hi with
  | zero => rfl
  | digits _ hdigits hhead =>
    have hread := readDigits_complete hdigits hr
    obtain ⟨d, ds, rfl, -⟩ := hdigits.exists_cons
    have hne : d ≠ zero := fun heq => hhead (by rw [heq]; rfl)
    simp only [List.cons_append, readInt, if_neg hne] at hread ⊢
    exact hread

theorem readFrac_complete {f ds : JsString} (hf : FracPart f ds)
    (hr : NoDigit r) (hpoint : ∀ u ∈ r.head?, u ≠ decimalPoint) :
    readFrac (f ++ r) = some (ds, r) := by
  cases hf with
  | absent =>
    cases r with
    | nil => rfl
    | cons u r => exact if_neg (hpoint u rfl)
  | digits _ hds => exact readDigits_complete hds hr

theorem readExp_complete {e : JsString} {n : ℤ} (he : ExpPart e n) (hr : Follow r) :
    readExp (e ++ r) = some (n, r) := by
  cases he with
  | absent =>
    cases r with
    | nil => rfl
    | cons u r => simp [readExp, (hr u rfl).2.2]
  | bare u ds hu hds =>
    have hread := readDigits_complete hds hr.noDigit
    obtain ⟨d, ds, rfl, hd⟩ := hds.exists_cons
    have hminus : d ≠ minus := by
      rintro rfl
      revert hd
      decide
    have hplus : d ≠ plus := by
      rintro rfl
      revert hd
      decide
    simp only [List.cons_append] at hread ⊢
    simp [readExp, hu, hminus, hplus, hread]
  | plus u ds hu hds =>
    have hread := readDigits_complete hds hr.noDigit
    have hne : plus ≠ minus := by decide
    simp [readExp, hu, hread, hne]
  | minus u ds hu hds =>
    have hread := readDigits_complete hds hr.noDigit
    simp [readExp, hu, hread]

/-- A code unit that is no digit is none of the digits. -/
theorem ne_of_isDigit {u v : UInt16} (hu : isDigit u = true) (hv : isDigit v = false) : u ≠ v := by
  rintro rfl
  rw [hu] at hv
  cases hv

theorem isDigit_of_isE {u : UInt16} (h : isE u = true) :
    isDigit u = false ∧ u ≠ decimalPoint := by
  simp only [isE, Bool.or_eq_true, decide_eq_true_eq] at h
  obtain rfl | rfl := h
  · decide
  · decide

theorem isWs_of_isDigit {u : UInt16} (h : isDigit u = true) : isWs u = false := by
  simp only [isWs, Bool.or_eq_false_iff, decide_eq_false_iff_not]
  refine ⟨⟨⟨?_, ?_⟩, ?_⟩, ?_⟩ <;> exact ne_of_isDigit h (by decide)

/-- An exponent, or its absence, does not go on as an integer or a fraction would. -/
theorem ExpPart.head {e : JsString} {n : ℤ} (he : ExpPart e n) (hr : Follow r) :
    NoDigit (e ++ r) ∧ ∀ u ∈ (e ++ r).head?, u ≠ decimalPoint := by
  cases he with
  | absent => exact ⟨hr.noDigit, fun u hu => (hr u hu).2.1⟩
  | bare u ds hu | plus u ds hu | minus u ds hu =>
    constructor
    · rintro _ ⟨⟩
      exact (isDigit_of_isE hu).1
    · rintro _ ⟨⟩
      exact (isDigit_of_isE hu).2

/-- A fraction, or its absence, does not go on as an integer would. -/
theorem FracPart.head {f ds : JsString} (hf : FracPart f ds) (hr : NoDigit r) :
    NoDigit (f ++ r) := by
  cases hf with
  | absent => exact hr
  | digits _ hds =>
    rintro _ ⟨⟩
    decide

theorem IntPart.exists_cons {i : JsString} (hi : IntPart i) :
    ∃ d i', i = d :: i' ∧ isDigit d = true := by
  cases hi with
  | zero => exact ⟨Json.zero, [], rfl, by decide⟩
  | digits _ hdigits => exact hdigits.exists_cons

theorem readUnsigned_complete (negative : Bool) {i f ds e : JsString} {n : ℤ} (hi : IntPart i)
    (hf : FracPart f ds) (he : ExpPart e n) (hr : Follow r) :
    readUnsigned negative (i ++ (f ++ (e ++ r))) =
      some (.number negative (ofDigits (i ++ ds)) (n - ds.length), r) := by
  obtain ⟨hdigit, hpoint⟩ := he.head hr
  simp only [readUnsigned, readInt_complete hi (hf.head hdigit),
    readFrac_complete hf hdigit hpoint, readExp_complete he hr, Option.bind_eq_bind,
    Option.bind_some]
  rfl

theorem readNumber_complete (negative : Bool) {i f ds e : JsString} {n : ℤ} (hi : IntPart i)
    (hf : FracPart f ds) (he : ExpPart e n) (hr : Follow r) :
    readNumber ((if negative then [minus] else []) ++ i ++ f ++ e ++ r) =
      some (.number negative (ofDigits (i ++ ds)) (n - ds.length), r) := by
  have hread := readUnsigned_complete negative hi hf he hr
  obtain ⟨d, i', rfl, hd⟩ := hi.exists_cons
  cases negative with
  | true => simpa [readNumber] using hread
  | false =>
    have hne : d ≠ minus := ne_of_isDigit hd (by decide)
    simpa [readNumber, hne] using hread

theorem readChars_complete {a : JsString} (h : Chars t a) (r : JsString) :
    readChars (t ++ quotationMark :: r) = some (a, r) := by
  induction h with
  | nil => exact readChars_quotationMark r
  | unescaped u t s hu _ ih =>
    rw [List.cons_append, readChars_unescaped hu, ih, Option.map_some]
  | escaped e u t s he _ ih =>
    have hne : e ≠ 0x75 := by
      rintro rfl
      exact absurd he (by simp [show Json.escaped 0x75 = none by decide])
    rw [List.cons_append, List.cons_append, readChars_escaped hne, he, Option.bind_some, ih,
      Option.map_some]
  | unicode x y z w u t s hu _ ih =>
    simp only [List.cons_append]
    rw [readChars_unicode, hu, Option.bind_some, ih, Option.map_some]

/-- The first code unit of a value is neither white space nor a closing bracket. -/
theorem Value.exists_cons {v : Json} (h : Value t v) :
    ∃ u t', t = u :: t' ∧ isWs u = false ∧ u ≠ endArray ∧ u ≠ endObject := by
  cases h with
  | literalNull | literalTrue | literalFalse =>
    exact ⟨_, _, rfl, by decide, by decide, by decide⟩
  | number negative i f ds e n hi hf he =>
    obtain ⟨d, i', rfl, hd⟩ := hi.exists_cons
    cases negative with
    | true => exact ⟨minus, _, rfl, by decide, by decide, by decide⟩
    | false =>
      exact ⟨d, _, rfl, isWs_of_isDigit hd, ne_of_isDigit hd (by decide),
        ne_of_isDigit hd (by decide)⟩
  | string | emptyArray | array | emptyObject | object =>
    exact ⟨_, _, rfl, by decide, by decide, by decide⟩

/-- A parser reads the texts of the grammar that are shorter than a bound, where they are followed
by what does not go on as a number would. -/
def Complete {α : Type} (p : Parser α) (g : JsString → α → Prop) (bound : ℕ) : Prop :=
  ∀ t a r, g t a → t.length < bound → Follow r → p (t ++ r) = some (a, r)

/-- The texts of a grammar start with something other than white space or a closing bracket. -/
def Headed {α : Type} (g : JsString → α → Prop) (close : UInt16) : Prop :=
  ∀ t a, g t a → ∃ u t', t = u :: t' ∧ isWs u = false ∧ u ≠ close

section Lists

variable {α : Type} {item : Parser α} {g : JsString → α → Prop} {close : UInt16} {bound : ℕ}

theorem follow_of_isWs {u : UInt16} (h : isWs u = true) :
    isDigit u = false ∧ u ≠ decimalPoint ∧ isE u = false := by
  simp only [isWs, Bool.or_eq_true, decide_eq_true_eq] at h
  obtain ((rfl | rfl) | rfl) | rfl := h <;> decide

/-- What follows an item does not go on as a number would. -/
theorem follow_ws {w : JsString} (hw : Ws w) {u : UInt16}
    (hu : isDigit u = false ∧ u ≠ decimalPoint ∧ isE u = false) (r : JsString) :
    Follow (w ++ u :: r) := by
  cases w with
  | nil => exact follow_cons hu r
  | cons v w =>
    exact follow_cons (follow_of_isWs (hw v List.mem_cons_self)) _

/-- White space before an item is skipped. -/
theorem skipWs_item (hhead : Headed g close) {w : JsString} {a : α} (hw : Ws w) (ht : g t a)
    (r : JsString) : skipWs (w ++ (t ++ r)) = t ++ r := by
  obtain ⟨v, t', rfl, hv, -⟩ := hhead t a ht
  refine skipWs_append hw fun x hx => ?_
  obtain rfl := Option.some.inj hx
  exact hv

/-- So is white space after it. -/
theorem skipWs_separator {w : JsString} {u : UInt16} (hw : Ws w) (hu : isWs u = false)
    (r : JsString) : skipWs (w ++ u :: r) = u :: r := by
  refine skipWs_append hw fun x hx => ?_
  obtain rfl := Option.some.inj hx
  exact hu

theorem readSepBy_complete (hitem : Complete item g bound) (hhead : Headed g close)
    (hclose : isDigit close = false ∧ close ≠ decimalPoint ∧ isE close = false)
    (hws : isWs close = false) (hne : close ≠ valueSeparator) {as : List α} (h : SepBy g t as)
    (hbound : t.length < bound) (hfuel : t.length < fuel) (r : JsString) :
    readSepBy item close fuel (t ++ close :: r) = some (as, r) := by
  induction h generalizing fuel with
  | one w t w' a hw ht hw' =>
    obtain ⟨fuel, rfl⟩ : ∃ n, fuel = n + 1 := ⟨fuel - 1, by omega⟩
    have hread := hitem t a _ ht (by simp at hbound; omega) (follow_ws hw' hclose r)
    simp only [List.append_assoc, readSepBy, skipWs_item hhead hw ht, hread, Option.bind_some,
      skipWs_separator hw' hws, if_true]
  | more w t w' ts a as hw ht hw' hts ih =>
    obtain ⟨fuel, rfl⟩ : ∃ n, fuel = n + 1 := ⟨fuel - 1, by omega⟩
    simp only [List.length_append, List.length_cons] at hbound hfuel
    have hcomma : isDigit valueSeparator = false ∧ valueSeparator ≠ decimalPoint ∧
        isE valueSeparator = false := by decide
    have hread := hitem t a _ ht (by omega) (follow_ws hw' hcomma (ts ++ close :: r))
    have hrest := ih (by omega) (by omega : ts.length < fuel)
    simp only [List.append_assoc, List.cons_append, readSepBy, skipWs_item hhead hw ht, hread,
      Option.bind_some, skipWs_separator hw' (show isWs valueSeparator = false by decide),
      if_neg hne.symm, if_true, hrest, Option.map_some]

/-- One or more items are read where there may be none. -/
theorem readList_complete (hitem : Complete item g bound) (hhead : Headed g close)
    (hclose : isDigit close = false ∧ close ≠ decimalPoint ∧ isE close = false)
    (hws : isWs close = false) (hne : close ≠ valueSeparator) {as : List α} (h : SepBy g t as)
    (hbound : t.length < bound) (hfuel : t.length < fuel) (r : JsString) :
    readList item close fuel (t ++ close :: r) = some (as, r) := by
  -- The white space before the first item is skipped once by `readList` and not again.
  obtain ⟨w, t', hw, ht', hskip, hsep, hle⟩ : ∃ w t', Ws w ∧ t = w ++ t' ∧
      (∃ u s, t' = u :: s ∧ isWs u = false ∧ u ≠ close) ∧ SepBy g t' as ∧
        t'.length ≤ t.length := by
    have hnil : Ws [] := fun u hu => by cases hu
    cases h with
    | one w t₁ w' a hw ht hw' =>
      obtain ⟨u, s, rfl, hu, hne⟩ := hhead t₁ a ht
      refine ⟨w, u :: s ++ w', hw, by simp, ⟨u, s ++ w', rfl, hu, hne⟩, ?_, by simp⟩
      simpa using SepBy.one [] (u :: s) w' a hnil ht hw'
    | more w t₁ w' ts a as hw ht hw' hts =>
      obtain ⟨u, s, rfl, hu, hne⟩ := hhead t₁ a ht
      refine ⟨w, u :: s ++ w' ++ valueSeparator :: ts, hw, by simp,
        ⟨u, s ++ w' ++ valueSeparator :: ts, by simp, hu, hne⟩, ?_, by simp⟩
      simpa using SepBy.more [] (u :: s) w' ts a as hnil ht hw' hts
  obtain ⟨u, s, rfl, hu, hnotclose⟩ := hskip
  have hread := readSepBy_complete hitem hhead hclose hws hne hsep (by omega)
    (by omega : (u :: s).length < fuel) r
  subst ht'
  unfold readList
  rw [List.append_assoc, List.cons_append, skipWs_separator hw hu]
  simp only [if_neg hnotclose]
  exact hread

end Lists

theorem readMember_complete {value : Parser Json} {bound : ℕ} (h : Complete value Value bound) :
    Complete (readMember value) (Member Value) bound := by
  rintro _ _ r ⟨t, k, w, w', t', v, hk, hw, hw', hv⟩ hbound hr
  simp only [List.length_append, List.length_cons] at hbound
  have hvalue := h t' v r hv (by omega) hr
  obtain ⟨u, s, rfl, hu, -⟩ := hv.exists_cons
  have hchars := readChars_complete hk (w ++ nameSeparator :: (w' ++ (u :: s ++ r)))
  simp only [List.append_assoc, List.cons_append, List.nil_append, readMember, if_true]
  simp only [List.cons_append] at hchars hvalue
  rw [hchars, Option.bind_some]
  dsimp only
  rw [skipWs_separator hw (by decide)]
  simp only [if_true]
  rw [skipWs_separator hw' hu, hvalue, Option.map_some]

/-- What starts with a digit is read as a number. -/
theorem readValue_of_isDigit {d : UInt16} (hd : isDigit d = true) :
    readValue (fuel + 1) (d :: t) = readNumber (d :: t) := by
  unfold readValue
  rw [if_neg (ne_of_isDigit hd (by decide)), if_neg (ne_of_isDigit hd (by decide)),
    if_neg (ne_of_isDigit hd (by decide)), if_neg (ne_of_isDigit hd (by decide)),
    if_neg (ne_of_isDigit hd (by decide)), if_neg (ne_of_isDigit hd (by decide))]

/-- A value is read. -/
theorem readValue_complete (fuel : ℕ) : Complete (readValue fuel) Value fuel := by
  induction fuel with
  | zero => exact fun _ _ _ _ hbound => absurd hbound (Nat.not_lt_zero _)
  | succ fuel ih =>
    intro t v r h hbound hr
    have hhead : Headed Value endArray := fun t v h => by
      obtain ⟨u, t', ht, hu, hne, -⟩ := h.exists_cons
      exact ⟨u, t', ht, hu, hne⟩
    have hheadMember : Headed (Member Value) endObject := by
      rintro _ _ ⟨t, k, w, w', t', v, -, -, -, -⟩
      exact ⟨quotationMark, t ++ [quotationMark] ++ w ++ nameSeparator :: w' ++ t', rfl, by decide,
        by decide⟩
    cases h with
    | literalNull | literalTrue | literalFalse => rfl
    | number negative i f ds e n hi hf he =>
      have hread := readNumber_complete negative hi hf he hr
      obtain ⟨d, i', rfl, hd⟩ := hi.exists_cons
      rw [← hread]
      cases negative with
      | true => rfl
      | false => exact readValue_of_isDigit hd
    | string t s ht =>
      have hread := readChars_complete ht r
      simp [readValue, hread]
    | emptyArray w hw =>
      have hskip := skipWs_separator hw (show isWs endArray = false by decide) r
      have hne : beginArray ≠ quotationMark := by decide
      simp [readValue, readList, hne, hskip]
    | array t vs ht =>
      simp only [List.length_append, List.length_cons, List.length_nil] at hbound
      have hread := readList_complete ih hhead (by decide) (by decide) (by decide) ht (by omega)
        (by omega : t.length < fuel) r
      have hne : beginArray ≠ quotationMark := by decide
      simp [readValue, hne, hread]
    | emptyObject w hw =>
      have hskip := skipWs_separator hw (show isWs endObject = false by decide) r
      have hne : beginObject ≠ quotationMark ∧ beginObject ≠ beginArray := by decide
      simp [readValue, readList, hne, hskip]
    | object t ms ht =>
      simp only [List.length_append, List.length_cons, List.length_nil] at hbound
      have hread := readList_complete (readMember_complete ih) hheadMember (by decide) (by decide)
        (by decide) ht (by omega) (by omega : t.length < fuel) r
      have hne : beginObject ≠ quotationMark ∧ beginObject ≠ beginArray := by decide
      simp [readValue, hne, hread]

/-- What starts with a quotation mark is read as a string. -/
theorem readValue_quotationMark (t : JsString) :
    readValue (fuel + 1) (quotationMark :: t) =
      (readChars t).map fun p => (.string p.1, p.2) := by
  unfold readValue
  exact if_pos rfl

/-- What starts with a brace is read as an object. -/
theorem readValue_beginObject (t : JsString) :
    readValue (fuel + 1) (beginObject :: t) =
      (readList (readMember (readValue fuel)) endObject fuel t).map fun p =>
        (.object p.1, p.2) := by
  unfold readValue
  rw [if_neg (by decide), if_neg (by decide), if_pos rfl]

/-- A text is parsed. -/
theorem parse_of_text {v : Json} (h : Text s v) : parse s = some v := by
  obtain ⟨w, t, w', rfl, hw, hw', hv⟩ := h
  have hfollow : Follow w' := by
    cases w' with
    | nil => exact follow_nil
    | cons u w' => exact follow_cons (follow_of_isWs (hw' u List.mem_cons_self)) w'
  have hread := readValue_complete ((w ++ t ++ w').length + 1) t v w' hv
    (by simp only [List.length_append]; omega) hfollow
  have hskip : skipWs (w ++ t ++ w') = t ++ w' := by
    obtain ⟨u, t', rfl, hu, -⟩ := hv.exists_cons
    rw [List.append_assoc]
    exact skipWs_separator hw hu (t' ++ w')
  have hrest : skipWs w' = [] := List.dropWhile_eq_nil_iff.2 hw'
  simp only [parse, hskip, hread, hrest, List.isEmpty_nil, if_true]

/-- The parser finds the value of every text and nothing else. -/
theorem parse_eq_some_iff {v : Json} : parse s = some v ↔ Text s v :=
  ⟨text_of_parse, parse_of_text⟩

/-- A text has one value. -/
theorem Text.unique {v v' : Json} (h : Text s v) (h' : Text s v') : v = v' :=
  Option.some.inj ((parse_of_text h).symm.trans (parse_of_text h'))

/-! ## Text that is put between quotation marks -/

/-- Characters that stand for themselves. -/
theorem Chars.of_unescaped (h : ∀ u ∈ t, Json.unescaped u = true) : Chars t t := by
  induction t with
  | nil => exact .nil
  | cons u t ih =>
    exact .unescaped u t t (h u List.mem_cons_self) (ih fun v hv => h v (List.mem_cons_of_mem _ hv))

/-- A name of such characters, before a colon, is read with the value after it. -/
theorem readMember_of_unescaped {value : Parser Json} {k : JsString}
    (hk : ∀ u ∈ k, unescaped u = true) (r : JsString) :
    readMember value (quotationMark :: (k ++ quotationMark :: nameSeparator :: r)) =
      (value (skipWs r)).map fun q => ((k, q.1), q.2) := by
  have hskip : skipWs (nameSeparator :: r) = nameSeparator :: r :=
    List.dropWhile_cons_of_neg (by decide)
  simp only [readMember, if_true, readChars_complete (Chars.of_unescaped hk), Option.bind_some,
    hskip]

/-- What is parsed has a value at its front. -/
theorem exists_readValue {v : Json} (h : parse s = some v) :
    ∃ r, readValue (s.length + 1) (skipWs s) = some (v, r) := by
  unfold parse at h
  cases hread : readValue (s.length + 1) (skipWs s) with
  | none => simp [hread] at h
  | some p =>
    simp only [hread, Option.ite_none_right_eq_some] at h
    exact ⟨p.2, by rw [← Option.some.inj h.2]⟩

/-- An item before a comma, and the items after it. -/
theorem readSepBy_comma {α : Type} {item : Parser α} {close : UInt16} {a : α}
    (hne : valueSeparator ≠ close) (hitem : item (skipWs s) = some (a, valueSeparator :: r)) :
    readSepBy item close (fuel + 1) s =
      (readSepBy item close fuel r).map fun q => (a :: q.1, q.2) := by
  have hskip : skipWs (valueSeparator :: r) = valueSeparator :: r :=
    List.dropWhile_cons_of_neg (by decide)
  simp only [readSepBy, hitem, Option.bind_some, hskip, if_neg hne, if_true]

/-- Four hexadecimal digits follow `\u`. -/
theorem readChars_unicode_cases {p : JsString × JsString}
    (h : readChars (escape :: 0x75 :: s) = some p) :
    ∃ a b c d u s', s = a :: b :: c :: d :: s' ∧ hex4 a b c d = some u := by
  rw [readChars.eq_def] at h
  simp only [if_neg (show ¬escape = quotationMark by decide), if_true] at h
  split at h
  · obtain ⟨u, hu, -⟩ := Option.bind_eq_some_iff.1 h
    exact ⟨_, _, _, _, u, _, rfl, hu⟩
  · cases h

/-- What a reader makes of a text that stands between quotation marks as it is. The string is that
text if every code unit of it stands for itself. If not, the string is shorter than the text, or a
backslash at the end has taken the closing quotation mark into the string. -/
theorem readChars_append {a b : JsString} (h : readChars (t ++ quotationMark :: r) = some (a, b)) :
    (∀ u ∈ t, unescaped u = true) ∧ a = t ∧ b = r ∨ a.length < t.length ∨
      ∃ c, readChars r = some (c, b) := by
  induction t using readChars.induct generalizing a with
  | case1 =>
    rw [List.nil_append, readChars_quotationMark] at h
    obtain ⟨rfl, rfl⟩ := Prod.mk.inj (Option.some.inj h)
    exact .inl ⟨fun _ hu => absurd hu List.not_mem_nil, rfl, rfl⟩
  | case2 t =>
    rw [List.cons_append, readChars_quotationMark] at h
    obtain ⟨rfl, -⟩ := Prod.mk.inj (Option.some.inj h)
    exact .inr (.inl (Nat.succ_pos _))
  | case3 =>
    rw [List.singleton_append, readChars_escaped (by decide)] at h
    obtain ⟨u, c, -, hc, -⟩ := bind_cons_eq_some h
    exact .inr (.inr ⟨c, hc⟩)
  | case4 x y z w t _ ih =>
    simp only [List.cons_append] at h
    rw [readChars_unicode] at h
    obtain ⟨u, a, hu, ha, rfl⟩ := bind_cons_eq_some h
    obtain ⟨-, rfl, -⟩ | hlt | hrest := ih ha
    · exact .inr (.inl (by simp only [List.length_cons]; omega))
    · exact .inr (.inl (by simp only [List.length_cons]; omega))
    · exact .inr (.inr hrest)
  | case5 t hshort =>
    -- The closing quotation mark is among the four digits after `\u`.
    simp only [List.cons_append] at h
    obtain ⟨x, y, z, w, u, s', heq, hu⟩ := readChars_unicode_cases h
    have hquote : hexDigit quotationMark = none := by decide
    obtain _ | ⟨t₁, _ | ⟨t₂, _ | ⟨t₃, _ | ⟨t₄, t⟩⟩⟩⟩ := t
    · obtain ⟨rfl, -⟩ := List.cons.inj heq
      simp [hex4, hquote] at hu
    · simp only [List.cons_append, List.nil_append, List.cons.injEq] at heq
      obtain ⟨-, rfl, -⟩ := heq
      simp [hex4, hquote] at hu
    · simp only [List.cons_append, List.nil_append, List.cons.injEq] at heq
      obtain ⟨-, -, rfl, -⟩ := heq
      simp [hex4, hquote] at hu
    · simp only [List.cons_append, List.nil_append, List.cons.injEq] at heq
      obtain ⟨-, -, -, rfl, -⟩ := heq
      simp [hex4, hquote] at hu
    · exact absurd rfl (hshort t₁ t₂ t₃ t₄ t)
  | case6 e t he _ ih =>
    simp only [List.cons_append] at h
    rw [readChars_escaped he] at h
    obtain ⟨u, a, hu, ha, rfl⟩ := bind_cons_eq_some h
    obtain ⟨-, rfl, -⟩ | hlt | hrest := ih ha
    · exact .inr (.inl (by simp only [List.length_cons]; omega))
    · exact .inr (.inl (by simp only [List.length_cons]; omega))
    · exact .inr (.inr hrest)
  | case7 u t _ _ hu ih =>
    rw [List.cons_append, readChars_unescaped hu] at h
    obtain ⟨a, ha, rfl⟩ := map_cons_eq_some h
    obtain ⟨hplain, rfl, rfl⟩ | hlt | hrest := ih ha
    · exact .inl ⟨List.forall_mem_cons.2 ⟨hu, hplain⟩, rfl, rfl⟩
    · exact .inr (.inl (by simp only [List.length_cons]; omega))
    · exact .inr (.inr hrest)
  | case8 u t hquote hescape hu =>
    rw [List.cons_append, readChars.eq_def] at h
    simp only [if_neg hquote, if_neg hescape, if_neg hu] at h
    cases h

end Json
