import Mathlib.Data.Nat.ModEq
import Mathlib.Data.List.Basic
import Mathlib.Tactic

/-!
# Big-endian byte strings

`be k n` is the natural number `n` written in `k` bytes, most significant first; higher digits are
dropped. `ofBe` reads a byte string back. They are inverse on `k`-byte strings (`be_ofBe`) and on
numbers below `256^k` (`ofBe_be`).
-/

namespace BigEndian

/-- The `k` low base-256 digits of `n`, most significant first. -/
def be : ℕ → ℕ → List UInt8
  | 0, _ => []
  | k + 1, n => be k (n / 256) ++ [UInt8.ofNat n]

/-- The number that a byte string denotes, most significant byte first. -/
def ofBe (bs : List UInt8) : ℕ := bs.foldl (fun acc b => acc * 256 + b.toNat) 0

@[simp] theorem length_be (k n : ℕ) : (be k n).length = k := by
  induction k generalizing n with
  | zero => rfl
  | succ k ih => simp [be, ih]

@[simp] theorem ofBe_nil : ofBe [] = 0 := rfl

@[simp] theorem ofBe_concat (bs : List UInt8) (b : UInt8) :
    ofBe (bs ++ [b]) = ofBe bs * 256 + b.toNat := by
  simp [ofBe]

/-- Reading back the digits of `n` gives `n` modulo `256^k`. -/
theorem ofBe_be_mod (k n : ℕ) : ofBe (be k n) = n % 256 ^ k := by
  induction k generalizing n with
  | zero => simp [be, Nat.mod_one]
  | succ k ih =>
    rw [be, ofBe_concat, ih, UInt8.toNat_ofNat']
    have h : n % 256 ^ (k + 1) = n % 256 + 256 * (n / 256 % 256 ^ k) := by
      rw [pow_succ', Nat.mod_mul]
    rw [h]
    omega

/-- Reading back the digits of a number that fits gives the number. -/
theorem ofBe_be {k n : ℕ} (h : n < 256 ^ k) : ofBe (be k n) = n := by
  rw [ofBe_be_mod, Nat.mod_eq_of_lt h]

/-- A `k`-byte string is the digits of the number that it denotes. -/
theorem be_ofBe (bs : List UInt8) : be bs.length (ofBe bs) = bs := by
  induction bs using List.reverseRecOn with
  | nil => rfl
  | append_singleton bs b ih =>
    have hb := b.toNat_lt
    have hdiv : (ofBe bs * 256 + b.toNat) / 256 = ofBe bs := by omega
    have hlow : UInt8.ofNat (ofBe bs * 256 + b.toNat) = b := by
      apply UInt8.toNat_inj.mp
      rw [UInt8.toNat_ofNat']
      omega
    rw [ofBe_concat, List.length_append, List.length_singleton, be, hdiv, ih, hlow]

/-- A byte string denotes a number below `256` to its length. -/
theorem ofBe_lt (bs : List UInt8) : ofBe bs < 256 ^ bs.length := by
  rw [← be_ofBe bs, ofBe_be_mod, length_be]
  exact Nat.mod_lt _ (by positivity)

end BigEndian
