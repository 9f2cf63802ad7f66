import EventQueue.Lib.Json
import EventQueue.Lib.JsNumber
import Mathlib.Tactic.Linarith
import Mathlib.Tactic.NormNum
import Mathlib.Tactic.Positivity

/-!
# A number's text is read back

`Number::toString` writes digits that are rounded to the number, so that whoever reads them as a
decimal literal gets the number again. Two things have to be seen. Seventeen digits are enough: they
miss a number by less than one part in `2 · 10 ^ 16`, and what is so near a number with 53 bits is
rounded to it (`round_of_near`). And each of the four ways in which digits are laid out is a JSON
number of the same value (`numberText_layOut`).
-/

namespace JsNumber

variable {q x : ℚ} {e : ℤ} {m : ℕ}

/-! ## The last bit -/

/-- A number has at most 53 bits before its last one. -/
theorem lt_mul_lastBit (q : ℚ) : q < 2 ^ 53 * 2 ^ lastBit q := by
  have hlog : q < (2 : ℚ) ^ (Int.log 2 q + 1) := by
    exact_mod_cast Int.lt_zpow_succ_log_self (b := 2) (by norm_num) q
  have hle : Int.log 2 q + 1 ≤ 53 + lastBit q := by
    have := le_max_left (Int.log 2 q - 52) (-1074)
    unfold lastBit
    omega
  calc q < (2 : ℚ) ^ (Int.log 2 q + 1) := hlog
    _ ≤ 2 ^ (53 + lastBit q) := zpow_le_zpow_right₀ (by norm_num) hle
    _ = 2 ^ 53 * 2 ^ lastBit q := by rw [zpow_add₀ (by norm_num)]; norm_num

/-- A number that is not subnormal has all 53 bits. -/
theorem mul_lastBit_le (hq : 0 < q) (hbit : lastBit q ≠ -1074) : 2 ^ 52 * 2 ^ lastBit q ≤ q := by
  have hlog : (2 : ℚ) ^ Int.log 2 q ≤ q := by
    exact_mod_cast Int.zpow_log_le_self (b := 2) (by norm_num) hq
  have heq : 52 + lastBit q = Int.log 2 q := by
    unfold lastBit at *
    omega
  calc 2 ^ 52 * 2 ^ lastBit q = (2 : ℚ) ^ (52 + lastBit q) := by
        rw [zpow_add₀ (by norm_num)]; norm_num
    _ = 2 ^ Int.log 2 q := by rw [heq]
    _ ≤ q := hlog

/-- The last bit is the only exponent that fits so. -/
theorem lastBit_eq (hx : 0 < x) (he : -1074 ≤ e) (hlt : x < 2 ^ 53 * 2 ^ e)
    (hle : e = -1074 ∨ 2 ^ 52 * 2 ^ e ≤ x) : lastBit x = e := by
  have hlog : Int.log 2 x < 53 + e := by
    rw [← Int.lt_zpow_iff_log_lt (b := 2) (by norm_num) hx]
    push_cast
    rwa [zpow_add₀ (by norm_num)]
  have hlow : e = -1074 ∨ 52 + e ≤ Int.log 2 x := by
    refine hle.imp id fun hle => ?_
    rw [← Int.zpow_le_iff_le_log (b := 2) (by norm_num) hx]
    push_cast
    rwa [zpow_add₀ (by norm_num)]
  unfold lastBit
  omega

/-! ## Rounding -/

/-- What is nearer than one half to an integer is rounded to it. -/
theorem roundHalfEven_eq (h : |x - m| < 1 / 2) : roundHalfEven x = m := by
  obtain ⟨hlow, hhigh⟩ := abs_lt.mp h
  unfold roundHalfEven
  dsimp only
  by_cases hge : (m : ℚ) ≤ x
  · have hfloor : ⌊x⌋₊ = m := by
      rw [Nat.floor_eq_iff ((Nat.cast_nonneg m).trans hge)]
      exact ⟨hge, by linarith⟩
    rw [hfloor, if_pos (by linarith)]
  · rw [not_le] at hge
    rcases Nat.eq_zero_or_pos m with rfl | hpos
    · have hfloor : ⌊x⌋₊ = 0 := Nat.floor_of_nonpos (by simpa using hge.le)
      rw [hfloor, if_pos (by push_cast at *; linarith)]
    · -- The integer below `x` is the one below `m`.
      obtain ⟨k, rfl⟩ : ∃ k, m = k + 1 := ⟨m - 1, by omega⟩
      push_cast at *
      have hfloor : ⌊x⌋₊ = k := by
        have hk : (0 : ℚ) ≤ k := Nat.cast_nonneg k
        rw [Nat.floor_eq_iff (by linarith)]
        exact ⟨by linarith, by linarith⟩
      rw [hfloor, if_neg (by linarith), if_pos (by linarith)]

/-- Rounding to an integer misses by one half at most. -/
theorem abs_roundHalfEven_sub_le (hx : 0 ≤ x) : |(roundHalfEven x : ℚ) - x| ≤ 1 / 2 := by
  have hlow : (⌊x⌋₊ : ℚ) ≤ x := Nat.floor_le hx
  have hhigh : x < ⌊x⌋₊ + 1 := Nat.lt_floor_add_one x
  unfold roundHalfEven
  dsimp only
  split_ifs <;> rw [abs_le] <;> push_cast <;> constructor <;> linarith

/-- What is nearer than half of the last bit to a number with so many bits, and has its own last bit
at the same place, is rounded to it. -/
theorem round_eq (hbit : lastBit x = e) (h : |x - m * 2 ^ e| < 2 ^ e / 2) :
    round x = m * 2 ^ e := by
  have hpos : (0 : ℚ) < 2 ^ e := by positivity
  have hnear : |x / 2 ^ e - m| < 1 / 2 := by
    have heq : x / 2 ^ e - m = (x - m * 2 ^ e) / 2 ^ e := by
      field_simp
    rw [heq, abs_div, abs_of_pos hpos, div_lt_iff₀ hpos]
    linarith
  rw [round, hbit, roundHalfEven_eq hnear]

/-- A magnitude with 53 bits, counted from the last one that it can have. -/
structure Representable (q : ℚ) : Prop where
  /-- It is not zero. -/
  pos : 0 < q
  /-- It is so many times its last bit. -/
  bits : ∃ m : ℕ, q = m * 2 ^ lastBit q

/-- The bits of a representable magnitude. -/
theorem Representable.exists_bits (h : Representable q) :
    ∃ m : ℕ, q = m * 2 ^ lastBit q ∧ m + 1 ≤ 2 ^ 53 ∧ (lastBit q ≠ -1074 → 2 ^ 52 ≤ m) := by
  obtain ⟨m, hm⟩ := h.bits
  have hpos : (0 : ℚ) < 2 ^ lastBit q := by positivity
  refine ⟨m, hm, ?_, fun hbit => ?_⟩
  · have hlt := lt_mul_lastBit q
    have hlt : (m : ℚ) < 2 ^ 53 := by
      refine lt_of_mul_lt_mul_right ?_ hpos.le
      rwa [← hm]
    exact_mod_cast hlt
  · have hle := mul_lastBit_le h.pos hbit
    have hle : (2 : ℚ) ^ 52 ≤ m := by
      refine le_of_mul_le_mul_right ?_ hpos
      rwa [← hm]
    exact_mod_cast hle

/-- What misses a representable magnitude by less than one part in `2 · 10 ^ 16` is rounded to
it. -/
theorem Representable.round_of_near (h : Representable q) (hx : 0 < x)
    (hnear : |x - q| ≤ q / (2 * 10 ^ 16)) : round x = q := by
  obtain ⟨m, hm, hfits, hnormal⟩ := h.exists_bits
  generalize hbit : lastBit q = e at *
  have hpos : (0 : ℚ) < 2 ^ e := by positivity
  have hfits : (m : ℚ) + 1 ≤ 2 ^ 53 := by exact_mod_cast hfits
  have hmin : -1074 ≤ e := hbit ▸ le_max_right _ _
  obtain ⟨hlow, hhigh⟩ := abs_le.mp hnear
  -- So little is less than half of the last bit.
  have hhalf : q / (2 * 10 ^ 16) < 2 ^ e / 2 := by
    rw [hm]
    have : (m : ℚ) * 2 ^ e ≤ (2 ^ 53 - 1) * 2 ^ e :=
      mul_le_mul_of_nonneg_right (by linarith) hpos.le
    rw [div_lt_div_iff₀ (by norm_num) (by norm_num)]
    nlinarith
  by_cases hbelow : x < 2 ^ 52 * 2 ^ e ∧ e ≠ -1074
  · -- The magnitude is a power of two, and below it the last bit is half as large.
    obtain ⟨hbelow, hsub⟩ := hbelow
    have hm' : m = 2 ^ 52 := by
      have hlt : (m : ℚ) * 2 ^ e < (2 ^ 52 + 1) * 2 ^ e := by
        rw [← hm]
        linarith
      have hlt : (m : ℚ) < 2 ^ 52 + 1 := lt_of_mul_lt_mul_right hlt hpos.le
      have hlt : m < 2 ^ 52 + 1 := by exact_mod_cast hlt
      have := hnormal hsub
      omega
    subst hm'
    have htwo : (2 : ℚ) ^ e = 2 * 2 ^ (e - 1) := by
      rw [zpow_sub_one₀ (by norm_num)]
      ring
    have hpos' : (0 : ℚ) < 2 ^ (e - 1) := by positivity
    have hq : q = (2 ^ 53 : ℕ) * 2 ^ (e - 1) := by
      rw [hm, htwo]
      push_cast
      ring
    rw [hq] at hlow hhigh
    push_cast at hlow hhigh
    have hlast : lastBit x = e - 1 := by
      refine lastBit_eq hx (by omega) ?_ (.inr ?_)
      · rw [htwo] at hbelow
        linarith
      · linarith
    rw [round_eq (m := 2 ^ 53) hlast, ← hq]
    rw [abs_lt]
    push_cast
    constructor <;> linarith
  · have hlast : lastBit x = e := by
      refine lastBit_eq hx hmin ?_ ?_
      · have : x < (m + 1) * 2 ^ e := by
          rw [add_mul, one_mul, ← hm]
          linarith
        exact this.trans_le (mul_le_mul_of_nonneg_right hfits hpos.le)
      · rw [not_and_or, not_lt, not_ne_iff] at hbelow
        exact hbelow.symm
    rw [round_eq (m := m) hlast, ← hm]
    rw [← hm]
    exact hnear.trans_lt hhalf

/-- What is rounded, and is not rounded to zero, is representable. -/
theorem representable_round (hx : 0 < x) (hne : round x ≠ 0) : Representable (round x) := by
  generalize hbit : lastBit x = e
  have hpos : (0 : ℚ) < 2 ^ e := by positivity
  have hround : round x = roundHalfEven (x / 2 ^ e) * 2 ^ e := by rw [round, hbit]
  generalize hm : roundHalfEven (x / 2 ^ e) = m at hround
  have hmin : -1074 ≤ e := hbit ▸ le_max_right _ _
  have hmpos : 0 < m := by
    rcases Nat.eq_zero_or_pos m with rfl | h
    · simp [hround] at hne
    · exact h
  have herr := abs_roundHalfEven_sub_le (x := x / 2 ^ e) (by positivity)
  rw [hm] at herr
  obtain ⟨hlow, hhigh⟩ := abs_le.mp herr
  have hscaled : x / 2 ^ e < 2 ^ 53 := by
    rw [div_lt_iff₀ hpos, ← hbit]
    exact lt_mul_lastBit x
  have hle : m ≤ 2 ^ 53 := by
    have : (m : ℚ) < 2 ^ 53 + 1 := by linarith
    have : m < 2 ^ 53 + 1 := by exact_mod_cast this
    omega
  rw [hround]
  have hmq : (0 : ℚ) < m := by exact_mod_cast hmpos
  rcases hle.lt_or_eq with hlt | rfl
  · -- The last bit stays where it is.
    have hlast : lastBit (m * 2 ^ e) = e := by
      refine lastBit_eq (by positivity) hmin ?_ ?_
      · have hlt : (m : ℚ) < 2 ^ 53 := by exact_mod_cast hlt
        exact mul_lt_mul_of_pos_right hlt hpos
      · by_cases hsub : e = -1074
        · exact .inl hsub
        · have hnormal := mul_lastBit_le hx (by rwa [hbit])
          rw [hbit, ← le_div_iff₀ hpos] at hnormal
          have hge : (2 : ℚ) ^ 52 < m + 1 := by linarith
          have hge : 2 ^ 52 < m + 1 := by exact_mod_cast hge
          have hge : (2 : ℚ) ^ 52 ≤ m := by exact_mod_cast Nat.lt_add_one_iff.mp hge
          exact .inr (mul_le_mul_of_nonneg_right hge hpos.le)
    exact ⟨by positivity, m, by rw [hlast]⟩
  · -- A carry: the magnitude is the next power of two.
    have hcarry : ((2 ^ 53 : ℕ) : ℚ) * 2 ^ e = (2 ^ 52 : ℕ) * 2 ^ (e + 1) := by
      rw [zpow_add_one₀ (by norm_num)]
      push_cast
      ring
    have hpos' : (0 : ℚ) < 2 ^ (e + 1) := by positivity
    have hlast : lastBit ((2 ^ 53 : ℕ) * 2 ^ e) = e + 1 := by
      rw [hcarry]
      refine lastBit_eq (by positivity) (by omega) ?_ (.inr ?_)
      · push_cast
        exact mul_lt_mul_of_pos_right (by norm_num) hpos'
      · push_cast
        exact le_rfl
    exact ⟨by positivity, 2 ^ 52, by rw [hlast, hcarry]⟩

/-! ## The shortest digits -/

/-- A candidate is rounded to the number. -/
theorem round_of_candidate {n : ℤ} {k s : ℕ} (h : candidate q n k = some s) :
    round (s * 10 ^ (n - k)) = q := by
  have := List.find?_some h
  simpa using this

/-- There is one of seventeen digits. -/
theorem candidate_isSome (h : Representable q) :
    (candidate q (Int.log 10 q + 1) 17).isSome = true := by
  have hpos := h.pos
  have hlog : (10 : ℚ) ^ Int.log 10 q ≤ q := by
    exact_mod_cast Int.zpow_log_le_self (b := 10) (by norm_num) hpos
  generalize Int.log 10 q = l at *
  have hunit : (0 : ℚ) < 10 ^ (l - 16) := by positivity
  have hscale : (10 : ℚ) ^ (((17 : ℕ) : ℤ) - (l + 1)) = (10 ^ (l - 16))⁻¹ := by
    rw [← zpow_neg]
    congr 1
    push_cast
    ring
  have hback : (10 : ℚ) ^ (l + 1 - ((17 : ℕ) : ℤ)) = 10 ^ (l - 16) := by
    congr 1
    push_cast
    ring
  -- A number has seventeen digits before this place.
  have hten : (10 : ℚ) ^ 16 * 10 ^ (l - 16) = 10 ^ l := by
    rw [← zpow_natCast, ← zpow_add₀ (by norm_num)]
    congr 1
    push_cast
    ring
  have hlarge : (10 : ℚ) ^ 16 ≤ q / 10 ^ (l - 16) := by
    rw [le_div_iff₀ hunit, hten]
    exact hlog
  have herr := abs_roundHalfEven_sub_le (x := q / 10 ^ (l - 16)) (by positivity)
  generalize hs : roundHalfEven (q / 10 ^ (l - 16)) = s at herr
  have hmiss : |(s : ℚ) * 10 ^ (l - 16) - q| ≤ q / (2 * 10 ^ 16) := by
    have heq : (s : ℚ) * 10 ^ (l - 16) - q = (s - q / 10 ^ (l - 16)) * 10 ^ (l - 16) := by
      field_simp
    rw [heq, abs_mul, abs_of_pos hunit]
    calc |(s : ℚ) - q / 10 ^ (l - 16)| * 10 ^ (l - 16) ≤ 1 / 2 * 10 ^ (l - 16) :=
          mul_le_mul_of_nonneg_right herr hunit.le
      _ ≤ q / (2 * 10 ^ 16) := by
          rw [le_div_iff₀ (by norm_num)]
          linarith
  have hspos : (0 : ℚ) < s * 10 ^ (l - 16) := by
    have := (abs_le.mp herr).1
    have : (0 : ℚ) < s := by linarith
    positivity
  have hround := h.round_of_near hspos hmiss
  unfold candidate
  rw [List.find?_isSome, hscale, hback, ← div_eq_mul_inv]
  exact ⟨s, by simp [hs], by simpa using hround⟩

/-- The digits are those of a number that is rounded to `q`, up to zeros at their end. -/
theorem shortest_spec (h : Representable q) :
    ∃ (s : ℕ) (n : ℤ), 0 < s ∧ round (s * 10 ^ n) = q ∧
      shortest q = ((digits s).rdropWhile (· = 0x30), n + (digits s).length) := by
  unfold shortest
  dsimp only
  generalize hfind : (List.range 17).findSome? (fun k =>
    (candidate q (Int.log 10 q + 1) (k + 1)).map fun s => (s, k + 1)) = found
  cases found with
  | none =>
    -- The last of the lengths that are tried has a candidate.
    have hnone := List.findSome?_eq_none_iff.mp hfind 16 (by decide)
    have hsome := candidate_isSome h
    rw [Option.map_eq_none_iff] at hnone
    rw [hnone] at hsome
    cases hsome
  | some p =>
    obtain ⟨k', -, hk⟩ := List.exists_of_findSome?_eq_some hfind
    obtain ⟨s, hs, rfl⟩ := Option.map_eq_some_iff.mp hk
    have hround := round_of_candidate hs
    refine ⟨s, Int.log 10 q + 1 - (k' + 1 : ℕ), ?_, hround, ?_⟩
    · rcases Nat.eq_zero_or_pos s with rfl | hpos
      · have hzero : round 0 = 0 := by
          have := round_eq (x := 0) (m := 0) (e := lastBit 0) rfl (by simp; positivity)
          simpa using this
        rw [Nat.cast_zero, zero_mul, hzero] at hround
        exact absurd hround h.pos.ne
      · exact hpos
    · refine Prod.ext rfl ?_
      dsimp only
      push_cast
      ring

end JsNumber

/-! ## Digits -/

namespace Json

variable {ds t : JsString}

/-- Digits behind others. -/
theorem ofDigits_append (ds t : JsString) :
    ofDigits (ds ++ t) = ofDigits ds * 10 ^ t.length + ofDigits t := by
  have hshift : ∀ (t : JsString) (n : ℕ), t.foldl (fun n d => n * 10 + (d.toNat - 0x30)) n =
      n * 10 ^ t.length + ofDigits t := by
    intro t
    induction t with
    | nil => simp [ofDigits]
    | cons u t ih =>
      intro n
      have hcons : ofDigits (u :: t) = (u.toNat - 0x30) * 10 ^ t.length + ofDigits t := by
        rw [ofDigits, List.foldl_cons, ih]
        simp
      rw [List.foldl_cons, ih, hcons, List.length_cons]
      ring
  rw [ofDigits, List.foldl_append]
  exact hshift t (ofDigits ds)

/-- Zeros denote nothing. -/
theorem ofDigits_replicate (k : ℕ) : ofDigits (List.replicate k zero) = 0 := by
  induction k with
  | zero => rfl
  | succ k ih => rw [List.replicate_succ', ofDigits_append, ih]; rfl

end Json

namespace JsNumber

open Json (ofDigits Digits isDigit)

/-- A decimal digit of a number. -/
theorem toNat_of_mem_toDigits {n : ℕ} {c : Char} (h : c ∈ Nat.toDigits 10 n) :
    0x30 ≤ c.toNat ∧ c.toNat ≤ 0x39 ∧ c.toNat.toUInt16.toNat = c.toNat := by
  have hdigit := Nat.isDigit_of_mem_toDigits (by decide) (by decide) h
  simp only [Char.isDigit, Bool.and_eq_true, decide_eq_true_eq] at hdigit
  have hle : c.toNat ≤ 0x39 := hdigit.2
  refine ⟨hdigit.1, hle, ?_⟩
  rw [Nat.toUInt16, UInt16.toNat_ofNat', Nat.mod_eq_of_lt (by omega)]

/-- The digits of a number are digits. -/
theorem digits_digits (n : ℕ) : Digits (digits n) := by
  refine ⟨by simp [digits, Nat.toDigits_ne_nil], fun u hu => ?_⟩
  obtain ⟨c, hc, rfl⟩ := List.mem_map.mp hu
  obtain ⟨hlow, hhigh, hunit⟩ := toNat_of_mem_toDigits hc
  simp only [isDigit, Bool.and_eq_true, decide_eq_true_eq, UInt16.le_iff_toNat_le, hunit]
  exact ⟨hlow, hhigh⟩

/-- They denote the number. -/
theorem ofDigits_digits (n : ℕ) : ofDigits (digits n) = n := by
  have hfold : ∀ (cs : List Char) (init : ℕ), (∀ c ∈ cs, c ∈ Nat.toDigits 10 n) →
      (cs.map fun c => c.toNat.toUInt16).foldl (fun n d => n * 10 + (d.toNat - 0x30)) init =
        Nat.ofDigitChars 10 cs init := by
    intro cs
    induction cs with
    | nil => exact fun init _ => rfl
    | cons c cs ih =>
      intro init hcs
      rw [List.map_cons, List.foldl_cons, ih _ fun c' hc' => hcs c' (by simp [hc']),
        (toNat_of_mem_toDigits (hcs c (by simp))).2.2, Nat.ofDigitChars_cons, Nat.mul_comm]
      rfl
  rw [digits, ofDigits, hfold _ _ fun c hc => hc, Nat.ofDigitChars_ten_toDigits]

/-- They do not start with a zero. -/
theorem head_digits {n : ℕ} (hn : 0 < n) : (digits n).head? ≠ some Json.zero := by
  have hchar : ∀ d < 10, 0 < d → d.digitChar.toNat.toUInt16 ≠ Json.zero := by decide
  induction n using Nat.strong_induction_on with
  | _ n ih =>
    rcases Nat.lt_or_ge n 10 with hlt | hge
    · simpa [digits, Nat.toDigits_of_lt_base hlt] using hchar n hlt hn
    · have hfirst := ih (n / 10) (by omega) (by omega)
      have hsplit : digits n = digits (n / 10) ++ [(n % 10).digitChar.toNat.toUInt16] := by
        rw [digits, Nat.toDigits_of_base_le (by decide) hge, List.map_append]
        rfl
      have hne : digits (n / 10) ≠ [] := (digits_digits (n / 10)).1
      rwa [hsplit, List.head?_append_of_ne_nil _ hne]

/-- Zeros at the end of digits, and what is left when they are dropped. -/
theorem exists_rdropWhile (ds : JsString) :
    ∃ k, ds = ds.rdropWhile (· = Json.zero) ++ List.replicate k Json.zero := by
  refine ⟨(ds.rtakeWhile (· = Json.zero)).length, ?_⟩
  have hzeros : ds.rtakeWhile (· = Json.zero) =
      List.replicate (ds.rtakeWhile (· = Json.zero)).length Json.zero :=
    List.eq_replicate_iff.mpr ⟨rfl, fun u hu => by simpa using List.mem_rtakeWhile_imp hu⟩
  rw [← hzeros, List.rdropWhile_append_rtakeWhile]

/-! ## Layout -/

/-- A JSON number without its sign, and what it denotes. -/
inductive NumberText : JsString → ℕ → ℤ → Prop
  | mk (i f ds e : JsString) (n : ℤ) (hi : Json.IntPart i) (hf : Json.FracPart f ds)
      (he : Json.ExpPart e n) : NumberText (i ++ f ++ e) (ofDigits (i ++ ds)) (n - ds.length)

/-- The exponent that is written for digits with their point after the first `n`. -/
theorem expPart_digits (n : ℤ) : Json.ExpPart
    (0x65 :: (if 0 < n then 0x2B else 0x2D) :: digits (n - 1).natAbs) (n - 1) := by
  by_cases hpos : 0 < n
  · have hvalue : (ofDigits (digits (n - 1).natAbs) : ℤ) = n - 1 := by
      rw [ofDigits_digits]
      omega
    have htext := Json.ExpPart.plus 0x65 _ (by decide) (digits_digits (n - 1).natAbs)
    rw [hvalue] at htext
    rw [if_pos hpos]
    exact htext
  · have hvalue : -(ofDigits (digits (n - 1).natAbs) : ℤ) = n - 1 := by
      rw [ofDigits_digits]
      omega
    have htext := Json.ExpPart.minus 0x65 _ (by decide) (digits_digits (n - 1).natAbs)
    rw [hvalue] at htext
    rw [if_neg hpos]
    exact htext

section LayOut

variable {ds : JsString} {n : ℤ}

/-- The first of some digits are the digits before a point. -/
theorem intPart_take (hds : Digits ds) (hhead : ds.head? ≠ some Json.zero) {k : ℕ} (hk : 0 < k) :
    Json.IntPart (ds.take k) := by
  refine .digits _ ⟨?_, fun u hu => hds.2 u (List.mem_of_mem_take hu)⟩ ?_
  · rw [ne_eq, List.take_eq_nil_iff]
    rintro (rfl | rfl)
    · omega
    · exact hds.1 rfl
  · rwa [List.head?_take, if_neg (by omega)]

/-- Digits, and zeros up to the point. -/
theorem numberText_zeros (hds : Digits ds) (hhead : ds.head? ≠ some Json.zero)
    (hn : (ds.length : ℤ) ≤ n) :
    ∃ c e, NumberText (ds ++ List.replicate (n - ds.length).toNat 0x30) c e ∧
      (c : ℚ) * 10 ^ e = ofDigits ds * 10 ^ (n - ds.length) := by
  obtain ⟨k, hk⟩ : ∃ k : ℕ, n - ds.length = k := ⟨(n - ds.length).toNat, by omega⟩
  have hint : Json.IntPart (ds ++ List.replicate k 0x30) := by
    refine .digits _ ⟨by simp [hds.1], fun u hu => ?_⟩ ?_
    · rcases List.mem_append.mp hu with hu | hu
      · exact hds.2 u hu
      · rw [List.eq_of_mem_replicate hu]
        rfl
    · rwa [List.head?_append_of_ne_nil _ hds.1]
  have htext := NumberText.mk _ _ _ _ _ hint .absent .absent
  simp only [List.append_nil] at htext
  rw [hk, Int.toNat_natCast]
  refine ⟨_, _, htext, ?_⟩
  rw [Json.ofDigits_append, Json.ofDigits_replicate, List.length_replicate]
  push_cast
  simp

/-- Digits with a point among them. -/
theorem numberText_point (hds : Digits ds) (hhead : ds.head? ≠ some Json.zero) (hpos : 0 < n)
    (hn : n < ds.length) :
    ∃ c e, NumberText (ds.take n.toNat ++ 0x2E :: ds.drop n.toNat) c e ∧
      (c : ℚ) * 10 ^ e = ofDigits ds * 10 ^ (n - ds.length) := by
  have hfrac : Json.FracPart (0x2E :: ds.drop n.toNat) (ds.drop n.toNat) := by
    refine .digits _ ⟨?_, fun u hu => hds.2 u (List.mem_of_mem_drop hu)⟩
    rw [ne_eq, List.drop_eq_nil_iff]
    omega
  have htext := NumberText.mk _ _ _ _ _ (intPart_take (k := n.toNat) hds hhead (by omega)) hfrac
    .absent
  rw [List.append_nil, List.take_append_drop] at htext
  refine ⟨_, _, htext, ?_⟩
  congr 2
  rw [List.length_drop]
  omega

/-- Zeros between the point and the digits. -/
theorem numberText_fraction (hds : Digits ds) (hn : n ≤ 0) :
    ∃ c e, NumberText (0x30 :: 0x2E :: (List.replicate (-n).toNat 0x30 ++ ds)) c e ∧
      (c : ℚ) * 10 ^ e = ofDigits ds * 10 ^ (n - ds.length) := by
  obtain ⟨k, hk⟩ : ∃ k : ℕ, -n = k := ⟨(-n).toNat, by omega⟩
  have hfrac : Json.FracPart (0x2E :: (List.replicate k 0x30 ++ ds))
      (List.replicate k 0x30 ++ ds) := by
    refine .digits _ ⟨by simp [hds.1], fun u hu => ?_⟩
    rcases List.mem_append.mp hu with hu | hu
    · rw [List.eq_of_mem_replicate hu]
      rfl
    · exact hds.2 u hu
  have htext := NumberText.mk _ _ _ _ _ .zero hfrac .absent
  rw [List.append_nil] at htext
  rw [hk, Int.toNat_natCast]
  refine ⟨_, _, htext, ?_⟩
  have hzeros : [Json.zero] ++ (List.replicate k 0x30 ++ ds) =
      List.replicate (k + 1) Json.zero ++ ds := rfl
  rw [hzeros, Json.ofDigits_append, Json.ofDigits_replicate, List.length_append,
    List.length_replicate]
  congr 2
  · omega
  · push_cast
    omega

/-- Digits with an exponent. -/
theorem numberText_exponent (hds : Digits ds) (hhead : ds.head? ≠ some Json.zero) {t : JsString}
    (ht : Json.ExpPart t (n - 1)) :
    ∃ c e, NumberText (if ds.length = 1 then ds ++ t
        else ds.take 1 ++ 0x2E :: (ds.drop 1 ++ t)) c e ∧
      (c : ℚ) * 10 ^ e = ofDigits ds * 10 ^ (n - ds.length) := by
  split_ifs with hone
  · have htext := NumberText.mk _ _ _ _ _ (.digits _ hds hhead) .absent ht
    simp only [List.append_nil] at htext
    refine ⟨_, _, htext, ?_⟩
    rw [hone]
    simp
  · have hlength : ds.length ≠ 0 := by simpa using hds.1
    have hfrac : Json.FracPart (0x2E :: ds.drop 1) (ds.drop 1) := by
      refine .digits _ ⟨?_, fun u hu => hds.2 u (List.mem_of_mem_drop hu)⟩
      rw [ne_eq, List.drop_eq_nil_iff]
      omega
    have htext := NumberText.mk _ _ _ _ _ (intPart_take hds hhead Nat.one_pos) hfrac ht
    rw [List.take_append_drop, List.append_assoc, List.cons_append] at htext
    refine ⟨_, _, htext, ?_⟩
    congr 2
    rw [List.length_drop]
    omega

/-- Some digits, with their decimal point after the first `n`, make a JSON number of that value. -/
theorem numberText_layOut (hds : Digits ds) (hhead : ds.head? ≠ some Json.zero) :
    ∃ c e, NumberText (layOut ds n) c e ∧
      (c : ℚ) * 10 ^ e = ofDigits ds * 10 ^ (n - ds.length) := by
  unfold layOut
  dsimp only
  by_cases hall : ds.length ≤ n ∧ n ≤ 21
  · rw [if_pos hall]
    exact numberText_zeros hds hhead hall.1
  rw [if_neg hall]
  by_cases hsome : 0 < n ∧ n ≤ 21
  · rw [if_pos hsome]
    exact numberText_point hds hhead hsome.1 (by omega)
  rw [if_neg hsome]
  by_cases hnone : -6 < n ∧ n ≤ 0
  · rw [if_pos hnone]
    exact numberText_fraction hds hnone.2
  rw [if_neg hnone]
  exact numberText_exponent hds hhead (expPart_digits n)

end LayOut

/-! ## The number of a number's text -/

/-- The text of a representable magnitude denotes a number that is rounded to it. -/
theorem exists_numberText (h : Representable q) :
    ∃ c e, NumberText (layOut (shortest q).1 (shortest q).2) c e ∧ round (c * 10 ^ e) = q := by
  obtain ⟨s, n, hs, hround, hshortest⟩ := shortest_spec h
  obtain ⟨k, hk⟩ := exists_rdropWhile (digits s)
  rw [hshortest]
  dsimp only
  generalize (digits s).rdropWhile (· = Json.zero) = ds at hk
  have hne : ds ≠ [] := by
    rintro rfl
    have hsome : (digits s).head? = some Json.zero := by
      have hzero : k ≠ 0 := by
        rintro rfl
        exact (digits_digits s).1 hk
      rw [hk, List.nil_append, List.head?_replicate, if_neg hzero]
    exact head_digits hs hsome
  have hds : Digits ds := ⟨hne, fun u hu => (digits_digits s).2 u (by rw [hk]; simp [hu])⟩
  have hhead : ds.head? ≠ some Json.zero := by
    have hhead := head_digits hs
    rwa [hk, List.head?_append_of_ne_nil _ hne] at hhead
  obtain ⟨c, e, htext, hvalue⟩ := numberText_layOut (n := n + (digits s).length) hds hhead
  refine ⟨c, e, htext, ?_⟩
  -- The zeros that were dropped are in the exponent.
  have hs' : s = ofDigits ds * 10 ^ k := by
    have hdigits := ofDigits_digits s
    rw [hk, Json.ofDigits_append, Json.ofDigits_replicate, List.length_replicate] at hdigits
    omega
  have hpower : ((ofDigits ds : ℕ) : ℚ) * 10 ^ (n + (digits s).length - ds.length) =
      s * 10 ^ n := by
    have hlength : n + (digits s).length - ds.length = k + n := by
      rw [hk, List.length_append, List.length_replicate]
      push_cast
      ring
    rw [hlength, zpow_add₀ (by norm_num), zpow_natCast, ← mul_assoc, hs']
    push_cast
    rfl
  rw [hvalue, hpower, hround]

/-- Zero has no bits. -/
theorem round_zero : round 0 = 0 := by
  have hnear : |(0 : ℚ) - (0 : ℕ) * 2 ^ lastBit 0| < 2 ^ lastBit 0 / 2 := by
    simp
    positivity
  simpa using round_eq (m := 0) rfl hnear

/-- A finite number that a literal denotes is zero, or its magnitude is representable and in
range. -/
theorem finite_ofDecimal {negative : Bool} {c : ℕ} {e : ℤ}
    (h : ofDecimal negative c e = .finite q) : q = 0 ∨ Representable |q| ∧ |q| < 2 ^ 1024 := by
  have hrounded : round (c * 10 ^ e) = 0 ∨ Representable (round (c * 10 ^ e)) := by
    by_cases hzero : round (c * 10 ^ e) = 0
    · exact .inl hzero
    · have hnonneg : (0 : ℚ) ≤ c * 10 ^ e := by positivity
      have hne : (0 : ℚ) ≠ c * 10 ^ e := fun hx => hzero (by rw [← hx, round_zero])
      exact .inr (representable_round (lt_of_le_of_ne hnonneg hne) hzero)
  generalize hr : round (c * 10 ^ e) = r at hrounded
  rw [ofDecimal, hr] at h
  by_cases hlt : r < 2 ^ 1024
  · rw [if_pos hlt] at h
    have habs : |q| = |r| := by
      rw [← JsNumber.finite.inj h, apply_ite abs, abs_neg, ite_self]
    rcases hrounded with rfl | hrep
    · exact .inl (abs_eq_zero.mp (by rw [habs, abs_zero]))
    · rw [habs, abs_of_pos hrep.pos]
      exact .inr ⟨hrep, hlt⟩
  · rw [if_neg hlt] at h
    cases h

/-- A text without its sign, and the sign. -/
theorem value_of_numberText {t : JsString} {c : ℕ} {e : ℤ} (h : NumberText t c e)
    (negative : Bool) :
    Json.Value ((if negative then [Json.minus] else []) ++ t) (.number negative c e) := by
  obtain ⟨i, f, ds, e, n, hi, hf, he⟩ := h
  have hvalue := Json.Value.number negative i f ds e n hi hf he
  rwa [List.append_assoc, List.append_assoc, ← List.append_assoc i] at hvalue

/-- The text of a finite number that a literal denotes is a JSON number that denotes it. -/
theorem exists_text {negative : Bool} {c : ℕ} {e : ℤ} (h : ofDecimal negative c e = .finite q) :
    ∃ (negative' : Bool) (c' : ℕ) (e' : ℤ),
      Json.Value (JsNumber.finite q).toString (.number negative' c' e') ∧
        ofDecimal negative' c' e' = .finite q := by
  by_cases hzero : q = 0
  · subst hzero
    have htext := NumberText.mk _ _ _ _ _ .zero .absent .absent
    exact ⟨false, 0, 0, value_of_numberText htext false, by simp [ofDecimal, round_zero]⟩
  obtain ⟨hrep, hlt⟩ := (finite_ofDecimal h).resolve_left hzero
  obtain ⟨c', e', htext, hround⟩ := exists_numberText hrep
  have htext := value_of_numberText htext (decide (q < 0))
  refine ⟨decide (q < 0), c', e', ?_, ?_⟩
  · rw [toString, if_neg hzero]
    simpa using htext
  · rw [ofDecimal, hround, if_pos hlt]
    by_cases hneg : q < 0
    · simp [hneg, abs_of_neg hneg]
    · simp [hneg, abs_of_nonneg (not_lt.mp hneg)]

end JsNumber
