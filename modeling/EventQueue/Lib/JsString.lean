import Mathlib.Data.List.Basic
import Mathlib.Tactic

/-!
# Strings of UTF-16 code units

A JavaScript string is a sequence of 16-bit code units, which need not be well formed. `ofUtf8` is
the decoder of `Buffer.toString('utf8')`: every maximal part of an ill-formed sequence becomes one
U+FFFD. `toUtf8` is the encoder of `Buffer.from(s, 'utf8')`, where a lone surrogate becomes U+FFFD.

`decodeFirst_utf8` reads the bytes of one code point back, whatever follows them. From it come the
round trip of a well-formed string (`ofUtf8_toUtf8`), and that bytes can be compared in place of
strings: an encoding that starts another's is that of a string that starts the other
(`prefix_of_toUtf8`).
-/

/-- A JavaScript string. -/
abbrev JsString := List UInt16

namespace JsString

/-- A string literal of a program. -/
def ofString (s : String) : JsString :=
  s.toList.flatMap fun c =>
    if c.toNat < 0x10000 then [c.toNat.toUInt16]
    else [(0xD800 + (c.toNat - 0x10000) / 0x400).toUInt16,
      (0xDC00 + (c.toNat - 0x10000) % 0x400).toUInt16]

/-! ## UTF-8 -/

/-- What a first byte of a longer sequence asks for: how many bytes follow, the range of the first
of them, and the bits that this byte gives. -/
def lead (b : UInt8) : Option (ℕ × ℕ × ℕ × ℕ) :=
  let n := b.toNat
  if 0xC2 ≤ n ∧ n ≤ 0xDF then some (1, 0x80, 0xBF, n - 0xC0)
  else if n = 0xE0 then some (2, 0xA0, 0xBF, 0)
  else if n = 0xED then some (2, 0x80, 0x9F, 0xD)
  else if 0xE1 ≤ n ∧ n ≤ 0xEF then some (2, 0x80, 0xBF, n - 0xE0)
  else if n = 0xF0 then some (3, 0x90, 0xBF, 0)
  else if 0xF1 ≤ n ∧ n ≤ 0xF3 then some (3, 0x80, 0xBF, n - 0xF0)
  else if n = 0xF4 then some (3, 0x80, 0x8F, 4)
  else none

/-- The continuation bytes at the front, at most `k` of them, the first in a range of its own: their
number, and the bits gathered. -/
def continuation : ℕ → ℕ → ℕ → ℕ → List UInt8 → ℕ × ℕ
  | k + 1, low, high, bits, b :: bs =>
    if low ≤ b.toNat ∧ b.toNat ≤ high then
      let (n, bits) := continuation k 0x80 0xBF (bits * 64 + (b.toNat - 0x80)) bs
      (n + 1, bits)
    else (0, bits)
  | _, _, _, bits, _ => (0, bits)

/-- The code point at the front of a byte string, and the number of bytes that it takes. -/
def decodeFirst (b : UInt8) (bs : List UInt8) : ℕ × ℕ :=
  if b.toNat < 0x80 then (b.toNat, 1)
  else
    match lead b with
    | none => (0xFFFD, 1)
    | some (k, low, high, bits) =>
      let (n, bits) := continuation k low high bits bs
      if n = k then (bits, n + 1) else (0xFFFD, n + 1)

/-- The code points of a byte string, with a bound on their number. -/
def codePoints : ℕ → List UInt8 → List ℕ
  | fuel + 1, b :: bs =>
    (decodeFirst b bs).1 :: codePoints fuel (bs.drop ((decodeFirst b bs).2 - 1))
  | _, _ => []

/-- The code units of a code point. -/
def units (c : ℕ) : JsString :=
  if c < 0x10000 then [c.toUInt16]
  else [(0xD800 + (c - 0x10000) / 0x400).toUInt16, (0xDC00 + (c - 0x10000) % 0x400).toUInt16]

/-- `Buffer.toString('utf8')`. -/
def ofUtf8 (bs : List UInt8) : JsString := (codePoints bs.length bs).flatMap units

example : ofUtf8 [0x61, 0xC3, 0xA9, 0xF0, 0x90, 0x62, 0xED, 0xA0] =
    [0x61, 0xE9, 0xFFFD, 0x62, 0xFFFD, 0xFFFD] := by decide

/-- The bytes of a code point. -/
def utf8 (c : ℕ) : List UInt8 :=
  if c < 0x80 then [c.toUInt8]
  else if c < 0x800 then [(0xC0 + c / 0x40).toUInt8, (0x80 + c % 0x40).toUInt8]
  else if c < 0x10000 then
    [(0xE0 + c / 0x1000).toUInt8, (0x80 + c / 0x40 % 0x40).toUInt8, (0x80 + c % 0x40).toUInt8]
  else
    [(0xF0 + c / 0x40000).toUInt8, (0x80 + c / 0x1000 % 0x40).toUInt8,
      (0x80 + c / 0x40 % 0x40).toUInt8, (0x80 + c % 0x40).toUInt8]

/-- The code points of a string; a lone surrogate is U+FFFD. -/
def scalars : JsString → List ℕ
  | [] => []
  | u :: us =>
    if u.toNat < 0xD800 ∨ 0xDFFF < u.toNat then u.toNat :: scalars us
    else
      match us with
      | v :: vs =>
        if u.toNat ≤ 0xDBFF ∧ 0xDC00 ≤ v.toNat ∧ v.toNat ≤ 0xDFFF then
          (0x10000 + (u.toNat - 0xD800) * 0x400 + (v.toNat - 0xDC00)) :: scalars vs
        else 0xFFFD :: scalars (v :: vs)
      | [] => [0xFFFD]

/-- `Buffer.from(s, 'utf8')`. -/
def toUtf8 (s : JsString) : List UInt8 := (scalars s).flatMap utf8

example : toUtf8 [0x6F, 0xE9, 0x20AC, 0xD83D, 0xDE00, 0xD83D] =
    [0x6F, 0xC3, 0xA9, 0xE2, 0x82, 0xAC, 0xF0, 0x9F, 0x98, 0x80, 0xEF, 0xBF, 0xBD] := by decide

/-- The empty string has no bytes. -/
@[simp] theorem toUtf8_nil : toUtf8 [] = [] := by
  rw [toUtf8, scalars, List.flatMap_nil]

/-- Every other string has some. -/
theorem toUtf8_ne_nil {s : JsString} (h : s ≠ []) : toUtf8 s ≠ [] := by
  have hutf8 : ∀ c, utf8 c ≠ [] := by
    intro c
    unfold utf8
    split_ifs <;> simp
  cases s with
  | nil => exact absurd rfl h
  | cons u us =>
    obtain ⟨c, cs, hcs⟩ : ∃ c cs, scalars (u :: us) = c :: cs := by
      unfold scalars
      split_ifs
      · exact ⟨_, _, rfl⟩
      · split
        · split_ifs <;> exact ⟨_, _, rfl⟩
        · exact ⟨_, _, rfl⟩
    rw [toUtf8, hcs, List.flatMap_cons]
    exact List.append_ne_nil_of_left_ne_nil (hutf8 c) _

/-! ## A code point is read back -/

/-- A code point that is not a surrogate. -/
def IsScalar (c : ℕ) : Prop := c < 0xD800 ∨ 0xDFFF < c ∧ c < 0x110000

/-- A number that fits a byte is the number of that byte. -/
theorem toNat_toUInt8_of_lt {n : ℕ} (h : n < 256) : n.toUInt8.toNat = n := by
  simp [Nat.toUInt8, UInt8.toNat_ofNat', Nat.mod_eq_of_lt h]

/-- One continuation byte, with its six bits. -/
theorem continuation_succ {k low high bits d : ℕ} {bs : List UInt8} (hd : d < 64)
    (hlow : low ≤ 0x80 + d) (hhigh : 0x80 + d ≤ high) :
    continuation (k + 1) low high bits ((0x80 + d).toUInt8 :: bs) =
      ((continuation k 0x80 0xBF (bits * 64 + d) bs).1 + 1,
        (continuation k 0x80 0xBF (bits * 64 + d) bs).2) := by
  have hb : (0x80 + d).toUInt8.toNat = 0x80 + d := toNat_toUInt8_of_lt (by omega)
  rw [continuation, hb, if_pos ⟨hlow, hhigh⟩, Nat.add_sub_cancel_left]

@[simp] theorem continuation_zero {low high bits : ℕ} {bs : List UInt8} :
    continuation 0 low high bits bs = (0, bits) := by
  rw [continuation]
  simp

theorem decodeFirst_one {c : ℕ} (h : c < 0x80) (rest : List UInt8) :
    decodeFirst c.toUInt8 rest = (c, 1) := by
  have hb : c.toUInt8.toNat = c := toNat_toUInt8_of_lt (by omega)
  rw [decodeFirst, hb, if_pos h]

/-- A lead byte whose continuation bytes are all there. -/
theorem decodeFirst_of_lead {b : UInt8} {bs : List UInt8} {k low high bits c : ℕ}
    (hlead : lead b = some (k, low, high, bits)) (hb : 0x80 ≤ b.toNat)
    (hbs : continuation k low high bits bs = (k, c)) : decodeFirst b bs = (c, k + 1) := by
  rw [decodeFirst, if_neg (by omega), hlead]
  simp [hbs]

theorem decodeFirst_two {c : ℕ} (hlow : 0x80 ≤ c) (hhigh : c < 0x800) (rest : List UInt8) :
    decodeFirst (0xC0 + c / 0x40).toUInt8 ((0x80 + c % 0x40).toUInt8 :: rest) = (c, 2) := by
  have hb : (0xC0 + c / 0x40).toUInt8.toNat = 0xC0 + c / 0x40 := toNat_toUInt8_of_lt (by omega)
  have hlead : lead (0xC0 + c / 0x40).toUInt8 = some (1, 0x80, 0xBF, c / 0x40) := by
    simp only [lead, hb]
    rw [if_pos (by omega), Nat.add_sub_cancel_left]
  refine decodeFirst_of_lead hlead (by omega) ?_
  rw [continuation_succ (by omega) (by omega) (by omega), continuation_zero]
  exact Prod.ext rfl (by dsimp only; omega)

theorem decodeFirst_three {c : ℕ} (hlow : 0x800 ≤ c) (hhigh : c < 0x10000)
    (hscalar : c < 0xD800 ∨ 0xDFFF < c) (rest : List UInt8) :
    decodeFirst (0xE0 + c / 0x1000).toUInt8
      ((0x80 + c / 0x40 % 0x40).toUInt8 :: (0x80 + c % 0x40).toUInt8 :: rest) = (c, 3) := by
  have hb : (0xE0 + c / 0x1000).toUInt8.toNat = 0xE0 + c / 0x1000 :=
    toNat_toUInt8_of_lt (by omega)
  obtain ⟨low, high, hlead, hlo, hhi⟩ : ∃ low high,
      lead (0xE0 + c / 0x1000).toUInt8 = some (2, low, high, c / 0x1000) ∧
        low ≤ 0x80 + c / 0x40 % 0x40 ∧ 0x80 + c / 0x40 % 0x40 ≤ high := by
    simp only [lead, hb]
    rw [if_neg (by omega)]
    split_ifs with h0 hD hmid
    · exact ⟨0xA0, 0xBF, by simp; omega, by omega, by omega⟩
    · exact ⟨0x80, 0x9F, by simp; omega, by omega, by omega⟩
    · exact ⟨0x80, 0xBF, by simp, by omega, by omega⟩
    all_goals omega
  refine decodeFirst_of_lead hlead (by omega) ?_
  rw [continuation_succ (by omega) hlo hhi, continuation_succ (by omega) (by omega) (by omega),
    continuation_zero]
  exact Prod.ext rfl (by dsimp only; omega)

theorem decodeFirst_four {c : ℕ} (hlow : 0x10000 ≤ c) (hhigh : c < 0x110000) (rest : List UInt8) :
    decodeFirst (0xF0 + c / 0x40000).toUInt8 ((0x80 + c / 0x1000 % 0x40).toUInt8 ::
      (0x80 + c / 0x40 % 0x40).toUInt8 :: (0x80 + c % 0x40).toUInt8 :: rest) = (c, 4) := by
  have hb : (0xF0 + c / 0x40000).toUInt8.toNat = 0xF0 + c / 0x40000 :=
    toNat_toUInt8_of_lt (by omega)
  obtain ⟨low, high, hlead, hlo, hhi⟩ : ∃ low high,
      lead (0xF0 + c / 0x40000).toUInt8 = some (3, low, high, c / 0x40000) ∧
        low ≤ 0x80 + c / 0x1000 % 0x40 ∧ 0x80 + c / 0x1000 % 0x40 ≤ high := by
    simp only [lead, hb]
    rw [if_neg (by omega), if_neg (by omega), if_neg (by omega), if_neg (by omega)]
    split_ifs with h0 hmid h4
    · exact ⟨0x90, 0xBF, by simp; omega, by omega, by omega⟩
    · exact ⟨0x80, 0xBF, by simp, by omega, by omega⟩
    · exact ⟨0x80, 0x8F, by simp; omega, by omega, by omega⟩
    all_goals omega
  refine decodeFirst_of_lead hlead (by omega) ?_
  rw [continuation_succ (by omega) hlo hhi, continuation_succ (by omega) (by omega) (by omega),
    continuation_succ (by omega) (by omega) (by omega), continuation_zero]
  exact Prod.ext rfl (by dsimp only; omega)

/-- A scalar value's bytes are read back, whatever follows them. -/
theorem decodeFirst_utf8 {c : ℕ} (h : IsScalar c) :
    ∃ b bs, utf8 c = b :: bs ∧ ∀ rest, decodeFirst b (bs ++ rest) = (c, bs.length + 1) := by
  unfold IsScalar at h
  unfold utf8
  split_ifs with h1 h2 h3
  · exact ⟨_, _, rfl, fun rest => decodeFirst_one h1 _⟩
  · exact ⟨_, _, rfl, fun rest => decodeFirst_two (by omega) h2 rest⟩
  · exact ⟨_, _, rfl, fun rest => decodeFirst_three (by omega) h3 (by omega) rest⟩
  · exact ⟨_, _, rfl, fun rest => decodeFirst_four (by omega) (by omega) rest⟩

/-! ## Strings and their code points -/

section Scalars

variable {u v : UInt16} {us vs : JsString}

/-- A code unit that is not a surrogate is a code point. -/
theorem scalars_cons (hu : u.toNat < 0xD800 ∨ 0xDFFF < u.toNat) :
    scalars (u :: us) = u.toNat :: scalars us := by
  rw [scalars.eq_def]
  exact if_pos hu

/-- A pair of surrogates is a code point. -/
theorem scalars_pair (hu : ¬(u.toNat < 0xD800 ∨ 0xDFFF < u.toNat))
    (h : u.toNat ≤ 0xDBFF ∧ 0xDC00 ≤ v.toNat ∧ v.toNat ≤ 0xDFFF) :
    scalars (u :: v :: vs) =
      (0x10000 + (u.toNat - 0xD800) * 0x400 + (v.toNat - 0xDC00)) :: scalars vs := by
  rw [scalars.eq_def]
  simp only [if_neg hu, if_pos h]

/-- A surrogate without a partner is replaced. -/
theorem scalars_lone (hu : ¬(u.toNat < 0xD800 ∨ 0xDFFF < u.toNat))
    (h : ¬(u.toNat ≤ 0xDBFF ∧ 0xDC00 ≤ v.toNat ∧ v.toNat ≤ 0xDFFF)) :
    scalars (u :: v :: vs) = 0xFFFD :: scalars (v :: vs) := by
  rw [scalars.eq_def]
  simp only [if_neg hu, if_neg h]

/-- A surrogate at the end is replaced. -/
theorem scalars_single (hu : ¬(u.toNat < 0xD800 ∨ 0xDFFF < u.toNat)) : scalars [u] = [0xFFFD] := by
  rw [scalars.eq_def]
  exact if_neg hu

end Scalars

/-- The code points of a string are scalar values. -/
theorem isScalar_of_mem_scalars {s : JsString} {c : ℕ} (h : c ∈ scalars s) : IsScalar c := by
  -- The cases are those of `scalars`: one unit, a pair, a lone surrogate, and one at the end.
  induction s using scalars.induct with
  | case1 => simp [scalars] at h
  | case2 u us hu ih =>
    rw [scalars_cons hu] at h
    obtain rfl | h := List.mem_cons.mp h
    · have := u.toNat_lt
      unfold IsScalar
      omega
    · exact ih h
  | case3 u hu v vs hpair ih =>
    rw [scalars_pair hu hpair] at h
    obtain hc | h := List.mem_cons.mp h
    · unfold IsScalar
      omega
    · exact ih h
  | case4 u hu v vs hpair ih =>
    rw [scalars_lone hu hpair] at h
    obtain hc | h := List.mem_cons.mp h
    · unfold IsScalar
      omega
    · exact ih h
  | case5 u hu =>
    rw [scalars_single hu, List.mem_singleton] at h
    unfold IsScalar
    omega

/-- The bytes of scalar values are read back. -/
theorem codePoints_flatMap_utf8 {cs : List ℕ} (h : ∀ c ∈ cs, IsScalar c) {fuel : ℕ}
    (hfuel : (cs.flatMap utf8).length ≤ fuel) : codePoints fuel (cs.flatMap utf8) = cs := by
  induction cs generalizing fuel with
  | nil => cases fuel <;> simp [codePoints]
  | cons c cs ih =>
    obtain ⟨b, bs, hutf8, hdec⟩ := decodeFirst_utf8 (h c (by simp))
    rw [List.flatMap_cons, hutf8] at hfuel ⊢
    simp only [List.cons_append, List.length_cons, List.length_append] at hfuel ⊢
    obtain ⟨fuel, rfl⟩ : ∃ n, fuel = n + 1 := ⟨fuel - 1, by omega⟩
    rw [codePoints, hdec, Nat.add_sub_cancel, List.drop_left,
      ih (fun c' hc' => h c' (by simp [hc'])) (by omega)]

/-- `String.prototype.isWellFormed`: every surrogate is in a pair. -/
def isWellFormed : JsString → Bool
  | [] => true
  | u :: us =>
    if u.toNat < 0xD800 ∨ 0xDFFF < u.toNat then isWellFormed us
    else
      match us with
      | v :: vs => (u.toNat ≤ 0xDBFF ∧ 0xDC00 ≤ v.toNat ∧ v.toNat ≤ 0xDFFF) && isWellFormed vs
      | [] => false

/-- A well-formed string is the code units of its code points. -/
theorem flatMap_units_scalars {s : JsString} (h : isWellFormed s = true) :
    (scalars s).flatMap units = s := by
  induction s using scalars.induct with
  | case1 => rfl
  | case2 u us hu ih =>
    rw [isWellFormed.eq_def] at h
    simp only [if_pos hu] at h
    have hunits : units u.toNat = [u] := by
      rw [units, if_pos u.toNat_lt]
      simp
    rw [scalars_cons hu, List.flatMap_cons, hunits, ih h, List.singleton_append]
  | case3 u hu v vs hpair ih =>
    rw [isWellFormed.eq_def] at h
    simp only [if_neg hu] at h
    obtain ⟨-, h⟩ := Bool.and_eq_true_iff.mp h
    -- A pair, taken apart again.
    have hunits : units (0x10000 + (u.toNat - 0xD800) * 0x400 + (v.toNat - 0xDC00)) = [u, v] := by
      have hhigh : 0xD800 + ((u.toNat - 0xD800) * 0x400 + (v.toNat - 0xDC00)) / 0x400 =
          u.toNat := by omega
      have hlow : 0xDC00 + ((u.toNat - 0xD800) * 0x400 + (v.toNat - 0xDC00)) % 0x400 =
          v.toNat := by omega
      rw [units, if_neg (by omega), Nat.add_assoc, Nat.add_sub_cancel_left, hhigh, hlow]
      simp
    rw [scalars_pair hu hpair, List.flatMap_cons, hunits, ih h]
    rfl
  | case4 u hu v vs hpair ih =>
    rw [isWellFormed.eq_def] at h
    -- A lone surrogate is not well formed.
    simp [hu, hpair] at h
  | case5 u hu =>
    rw [isWellFormed.eq_def] at h
    simp [hu] at h

/-- A well-formed string is decoded from its encoding. -/
theorem ofUtf8_toUtf8 {s : JsString} (h : isWellFormed s = true) : ofUtf8 (toUtf8 s) = s := by
  rw [ofUtf8, toUtf8, codePoints_flatMap_utf8 (fun c hc => isScalar_of_mem_scalars hc) le_rfl,
    flatMap_units_scalars h]

/-- The bytes of one sequence of scalar values start those of another only if the one starts the
other. -/
theorem prefix_of_flatMap_utf8 {cs ds : List ℕ} (hcs : ∀ c ∈ cs, IsScalar c)
    (hds : ∀ d ∈ ds, IsScalar d) (h : cs.flatMap utf8 <+: ds.flatMap utf8) : cs <+: ds := by
  induction cs generalizing ds with
  | nil => exact List.nil_prefix
  | cons c cs ih =>
    obtain ⟨b, bs, hc, hdecc⟩ := decodeFirst_utf8 (hcs c (by simp))
    obtain ⟨rest, hrest⟩ := h
    cases ds with
    | nil => simp [hc] at hrest
    | cons d ds =>
      obtain ⟨b', bs', hd, hdecd⟩ := decodeFirst_utf8 (hds d (by simp))
      rw [List.flatMap_cons, List.flatMap_cons, hc, hd, List.cons_append, List.cons_append,
        List.cons_append, List.append_assoc] at hrest
      obtain ⟨rfl, htail⟩ := List.cons.inj hrest
      -- Both first characters are read from the same bytes.
      have hfirst := hdecc (cs.flatMap utf8 ++ rest)
      rw [htail, hdecd] at hfirst
      obtain ⟨rfl, hlen⟩ := Prod.mk.inj hfirst
      have happ := (List.append_inj htail (by omega)).2
      exact List.cons_prefix_cons.mpr ⟨rfl, ih (fun c' h' => hcs c' (by simp [h']))
        (fun d' h' => hds d' (by simp [h'])) ⟨rest, happ⟩⟩

/-- The encoding of a well-formed string starts another's only if the string starts the other. -/
theorem prefix_of_toUtf8 {s t : JsString} (hs : isWellFormed s = true) (ht : isWellFormed t = true)
    (h : toUtf8 s <+: toUtf8 t) : s <+: t := by
  obtain ⟨rest, hrest⟩ := prefix_of_flatMap_utf8 (fun c hc => isScalar_of_mem_scalars hc)
    (fun c hc => isScalar_of_mem_scalars hc) h
  refine ⟨rest.flatMap units, ?_⟩
  rw [← flatMap_units_scalars hs, ← flatMap_units_scalars ht, ← hrest, List.flatMap_append]

/-! ## Parts of strings -/

section Parts

variable {u : UInt16} {s t : JsString}

/-- The code points before and after a code unit that is not a surrogate. -/
theorem scalars_append_cons (hu : u.toNat < 0xD800 ∨ 0xDFFF < u.toNat) (s t : JsString) :
    scalars (s ++ u :: t) = scalars s ++ u.toNat :: scalars t := by
  induction s using scalars.induct with
  | case1 => exact scalars_cons hu
  | case2 v us hv ih =>
    rw [List.cons_append, scalars_cons hv, scalars_cons hv, ih, List.cons_append]
  | case3 v hv w vs hpair ih => simp only [List.cons_append, scalars_pair hv hpair, ih]
  | case4 v hv w vs hpair ih =>
    simp only [List.cons_append, scalars_lone hv hpair] at ih ⊢
    rw [ih]
  | case5 v hv =>
    have hnot : ¬(v.toNat ≤ 0xDBFF ∧ 0xDC00 ≤ u.toNat ∧ u.toNat ≤ 0xDFFF) := by omega
    rw [List.singleton_append, scalars_lone hv hnot, scalars_cons hu, scalars_single hv,
      List.singleton_append]

/-- The bytes before and after a code unit that is not a surrogate. -/
theorem toUtf8_append_cons (hu : u.toNat < 0xD800 ∨ 0xDFFF < u.toNat) (s t : JsString) :
    toUtf8 (s ++ u :: t) = toUtf8 s ++ (utf8 u.toNat ++ toUtf8 t) := by
  rw [toUtf8, scalars_append_cons hu, List.flatMap_append, List.flatMap_cons]
  rfl

/-- The part before a code unit that is not a surrogate is well-formed if the string is. -/
theorem isWellFormed_of_append_cons (hu : u.toNat < 0xD800 ∨ 0xDFFF < u.toNat)
    (h : isWellFormed (s ++ u :: t) = true) : isWellFormed s = true := by
  induction s using scalars.induct with
  | case1 => rfl
  | case2 v us hv ih =>
    rw [List.cons_append, isWellFormed.eq_def] at h
    rw [isWellFormed.eq_def]
    simp only [if_pos hv] at h ⊢
    exact ih h
  | case3 v hv w vs hpair ih =>
    rw [List.cons_append, List.cons_append, isWellFormed.eq_def] at h
    rw [isWellFormed.eq_def]
    simp only [if_neg hv, Bool.and_eq_true] at h ⊢
    exact ⟨h.1, ih h.2⟩
  | case4 v hv w vs hpair ih =>
    rw [List.cons_append, List.cons_append, isWellFormed.eq_def] at h
    simp [hv, hpair] at h
  | case5 v hv =>
    rw [List.singleton_append, isWellFormed.eq_def] at h
    simp only [if_neg hv, Bool.and_eq_true, decide_eq_true_eq] at h
    omega

/-- The code points of a well-formed string and of what follows it. -/
theorem scalars_append (hs : isWellFormed s = true) (t : JsString) :
    scalars (s ++ t) = scalars s ++ scalars t := by
  induction s using scalars.induct with
  | case1 => rfl
  | case2 v us hv ih =>
    rw [isWellFormed.eq_def] at hs
    simp only [if_pos hv] at hs
    rw [List.cons_append, scalars_cons hv, scalars_cons hv, ih hs, List.cons_append]
  | case3 v hv w vs hpair ih =>
    rw [isWellFormed.eq_def] at hs
    simp only [if_neg hv, Bool.and_eq_true] at hs
    simp only [List.cons_append, scalars_pair hv hpair, ih hs.2]
  | case4 v hv w vs hpair ih =>
    rw [isWellFormed.eq_def] at hs
    simp [hv, hpair] at hs
  | case5 v hv =>
    rw [isWellFormed.eq_def] at hs
    simp [hv] at hs

/-- The bytes of a well-formed string and of what follows it. -/
theorem toUtf8_append (hs : isWellFormed s = true) (t : JsString) :
    toUtf8 (s ++ t) = toUtf8 s ++ toUtf8 t := by
  rw [toUtf8, scalars_append hs, List.flatMap_append]
  rfl

/-- What follows a well-formed string decides whether the whole is well formed. -/
theorem isWellFormed_append (hs : isWellFormed s = true) (t : JsString) :
    isWellFormed (s ++ t) = isWellFormed t := by
  induction s using scalars.induct with
  | case1 => rfl
  | case2 v us hv ih =>
    rw [isWellFormed.eq_def] at hs
    simp only [if_pos hv] at hs
    rw [List.cons_append, isWellFormed.eq_def]
    simp only [if_pos hv]
    exact ih hs
  | case3 v hv w vs hpair ih =>
    rw [isWellFormed.eq_def] at hs
    simp only [if_neg hv, Bool.and_eq_true] at hs
    rw [List.cons_append, List.cons_append, isWellFormed.eq_def]
    simp only [if_neg hv, ih hs.2, hs.1, Bool.true_and]
  | case4 v hv w vs hpair ih =>
    rw [isWellFormed.eq_def] at hs
    simp [hv, hpair] at hs
  | case5 v hv =>
    rw [isWellFormed.eq_def] at hs
    simp [hv] at hs

/-- The string of ASCII bytes. -/
def ofAscii (bs : List UInt8) : JsString := bs.map UInt8.toUInt16

/-- All bytes of a list are ASCII. -/
def isAscii (bs : List UInt8) : Bool := bs.all fun b => b.toNat < 0x80

/-- The bytes of the string of ASCII bytes are these bytes. -/
theorem toUtf8_ofAscii {bs : List UInt8} (h : isAscii bs = true) : toUtf8 (ofAscii bs) = bs := by
  induction bs with
  | nil => exact toUtf8_nil
  | cons b bs ih =>
    obtain ⟨hb, hbs⟩ := Bool.and_eq_true_iff.1 h
    have hb := of_decide_eq_true hb
    have hunit : b.toUInt16.toNat = b.toNat := UInt8.toNat_toUInt16 b
    have hutf8 : utf8 b.toUInt16.toNat = [b] := by
      rw [hunit, utf8, if_pos hb, Nat.toUInt8, UInt8.ofNat_toNat]
    have hcons := toUtf8_append_cons (u := b.toUInt16) (.inl (by omega)) [] (ofAscii bs)
    rw [List.nil_append, hutf8, toUtf8_nil, ih hbs] at hcons
    exact hcons

/-- A string without surrogates is well formed. -/
theorem isWellFormed_of_lt (h : ∀ u ∈ s, u.toNat < 0xD800) : isWellFormed s = true := by
  induction s with
  | nil => rfl
  | cons u s ih =>
    rw [isWellFormed.eq_def]
    simp only [if_pos (Or.inl (h u List.mem_cons_self))]
    exact ih fun v hv => h v (List.mem_cons_of_mem _ hv)

theorem isWellFormed_ofAscii (bs : List UInt8) : isWellFormed (ofAscii bs) = true := by
  refine isWellFormed_of_lt fun u hu => ?_
  obtain ⟨b, -, rfl⟩ := List.mem_map.1 hu
  have hb := b.toNat_lt
  rw [UInt8.toNat_toUInt16]
  omega

/-- An ASCII byte is in the encoding of its code point only. -/
theorem eq_of_mem_utf8 {c : ℕ} {b : UInt8} (hb : b.toNat < 0x80) (hc : c < 0x110000)
    (h : b ∈ utf8 c) : c = b.toNat := by
  -- The bytes of longer sequences are all 128 or more.
  have hbyte : ∀ n, 0x80 ≤ n → n < 256 → b ≠ n.toUInt8 := by
    rintro n hn hlt rfl
    rw [toNat_toUInt8_of_lt hlt] at hb
    omega
  unfold utf8 at h
  split_ifs at h with h1 h2 h3
  · rw [List.mem_singleton] at h
    rw [h, toNat_toUInt8_of_lt (by omega)]
  all_goals
    simp only [List.mem_cons, List.not_mem_nil, or_false] at h
    exfalso
  · obtain h | h := h
    · exact hbyte _ (by omega) (by omega) h
    · exact hbyte _ (by omega) (by omega) h
  · obtain h | h | h := h
    · exact hbyte _ (by omega) (by omega) h
    · exact hbyte _ (by omega) (by omega) h
    · exact hbyte _ (by omega) (by omega) h
  · obtain h | h | h | h := h
    · exact hbyte _ (by omega) (by omega) h
    · exact hbyte _ (by omega) (by omega) h
    · exact hbyte _ (by omega) (by omega) h
    · exact hbyte _ (by omega) (by omega) h

/-- A code point below the surrogates, other than U+FFFD, is one of the code units. -/
theorem mem_of_mem_scalars (hu : u.toNat < 0xD800) (h : u.toNat ∈ scalars s) : u ∈ s := by
  induction s using scalars.induct with
  | case1 => simp [scalars] at h
  | case2 v us hv ih =>
    rw [scalars_cons hv] at h
    obtain h | h := List.mem_cons.mp h
    · rw [UInt16.toNat_inj.mp h]
      exact List.mem_cons_self
    · exact List.mem_cons_of_mem _ (ih h)
  | case3 v hv w vs hpair ih =>
    rw [scalars_pair hv hpair] at h
    obtain h | h := List.mem_cons.mp h
    · omega
    · exact List.mem_cons_of_mem _ (List.mem_cons_of_mem _ (ih h))
  | case4 v hv w vs hpair ih =>
    rw [scalars_lone hv hpair] at h
    obtain h | h := List.mem_cons.mp h
    · omega
    · exact List.mem_cons_of_mem _ (ih h)
  | case5 v hv =>
    rw [scalars_single hv, List.mem_singleton] at h
    omega

/-- An ASCII byte of an encoding is a code unit of the string. -/
theorem mem_of_mem_toUtf8 {b : UInt8} (hb : b.toNat < 0x80) (h : b ∈ toUtf8 s) :
    b.toUInt16 ∈ s := by
  obtain ⟨c, hc, hmem⟩ := List.mem_flatMap.mp h
  have hlt : c < 0x110000 := by
    have := isScalar_of_mem_scalars hc
    unfold IsScalar at this
    omega
  have hunit : b.toUInt16.toNat = b.toNat := UInt8.toNat_toUInt16 b
  refine mem_of_mem_scalars (by omega) ?_
  rwa [hunit, ← eq_of_mem_utf8 hb hlt hmem]

end Parts

end JsString
