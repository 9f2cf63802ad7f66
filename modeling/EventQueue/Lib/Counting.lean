import Mathlib.Algebra.Order.BigOperators.Group.Finset
import Mathlib.Algebra.BigOperators.Ring.Finset
import Mathlib.Data.Int.Interval
import Mathlib.Data.List.Nodup
import Mathlib.Tactic.Ring

/-!
# Counting the elements of a list

Bounds on the length of a list from what is known of its elements: that they are distinct and lie in
a range, or that each belongs to one of a few owners which own a bounded number of them; and how the
number of elements with a property changes when one element does. The last section counts the
members of a branching process, whose members have a bounded number of offspring each.
-/

namespace Counting

variable {α β : Type*}

/-- A list without repetition whose elements are all equal has one at most. -/
theorem length_le_one_of_nodup {l : List α} (hnodup : l.Nodup)
    (heq : ∀ a ∈ l, ∀ b ∈ l, a = b) : l.length ≤ 1 := by
  match l, hnodup, heq with
  | [], _, _ => simp
  | [a], _, _ => simp
  | a :: b :: l, hnodup, heq =>
    have hab : a = b := heq a (by simp) b (by simp)
    simp [hab] at hnodup

/-- A map that keeps less of a list gives a sublist. -/
theorem filterMap_sublist_filterMap {p q : α → Option β} {l : List α}
    (h : ∀ a ∈ l, p a = none ∨ p a = q a) : (l.filterMap p).Sublist (l.filterMap q) := by
  induction l with
  | nil => simp
  | cons a l ih =>
    have ih := ih fun b hb => h b (List.mem_cons_of_mem _ hb)
    rcases h a (by simp) with hnone | heq
    · rw [List.filterMap_cons_none hnone]
      cases hq : q a with
      | none => rwa [List.filterMap_cons_none hq]
      | some b => rw [List.filterMap_cons_some hq]; exact ih.cons b
    · cases hq : q a with
      | none => rw [List.filterMap_cons_none hq, List.filterMap_cons_none (heq.trans hq)]; exact ih
      | some b =>
        rw [List.filterMap_cons_some hq, List.filterMap_cons_some (heq.trans hq)]
        exact ih.cons_cons b

/-- Distinct numbers between zero and a bound are no more than one more than the bound. -/
theorem length_le_of_nodup_range {l : List ℤ} {n : ℤ} (hn : 0 ≤ n) (hnodup : l.Nodup)
    (hrange : ∀ r ∈ l, 0 ≤ r ∧ r ≤ n) : (l.length : ℤ) ≤ n + 1 := by
  have hsub : l.toFinset ⊆ Finset.Icc 0 n := fun r hr =>
    Finset.mem_Icc.mpr (hrange r (List.mem_toFinset.mp hr))
  have hcard := Finset.card_le_card hsub
  rw [List.toFinset_card_of_nodup hnodup, Int.card_Icc] at hcard
  omega

/-- When each element of a list belongs to an owner, and an owner owns `k` of them at most, the list
is at most `k` times as long as that of the owners. -/
theorem length_le_mul {l : List α} {owners : List β} (owns : β → α → Bool) {k : ℕ}
    (howned : ∀ a ∈ l, ∃ b ∈ owners, owns b a = true)
    (hk : ∀ b ∈ owners, l.countP (owns b) ≤ k) : l.length ≤ k * owners.length := by
  induction owners generalizing l with
  | nil =>
    obtain rfl : l = [] := List.eq_nil_iff_forall_not_mem.mpr fun a ha => by
      obtain ⟨b, hb, -⟩ := howned a ha
      cases hb
    simp
  | cons b owners ih =>
    -- The elements that the first owner does not own belong to the others.
    have hrest : (l.filter fun a => !owns b a).length ≤ k * owners.length := by
      refine ih (fun a ha => ?_) fun b' hb' => ?_
      · obtain ⟨ha, hnot⟩ := List.mem_filter.mp ha
        obtain ⟨b', hb', howns⟩ := howned a ha
        rcases List.mem_cons.mp hb' with rfl | hb'
        · simp [howns] at hnot
        · exact ⟨b', hb', howns⟩
      · exact (List.filter_sublist.countP_le).trans (hk b' (List.mem_cons_of_mem _ hb'))
    have hfirst := hk b (by simp)
    have hsplit := List.length_eq_countP_add_countP (owns b) (l := l)
    rw [List.countP_eq_length_filter (p := fun a => decide ¬owns b a = true)] at hsplit
    simp only [Bool.not_eq_true, Bool.decide_eq_false] at hsplit
    rw [List.length_cons, Nat.mul_succ]
    omega

/-- Replacing one element of a list changes the number of elements with a property by what the old
and the new one count for. -/
theorem countP_set_add (p : α → Bool) {l : List α} {i : ℕ} {a : α} (h : l[i]? = some a) (b : α) :
    (l.set i b).countP p + (p a).toNat = l.countP p + (p b).toNat := by
  induction l generalizing i with
  | nil => simp at h
  | cons x l ih =>
    cases i with
    | zero =>
      obtain rfl : x = a := by simpa using h
      cases hx : p x <;> cases hb : p b <;> simp [hx, hb]
    | succ i =>
      have ih := ih (i := i) (by simpa using h)
      cases hx : p x <;> simp [hx] <;> omega

/-- The elements with a property are those of each level, when every one of them has a level below
`n`. -/
theorem countP_eq_sum_levels {l : List α} {p : α → Bool} {g : α → ℤ} {n : ℕ}
    (h : ∀ a ∈ l, p a = true → 0 ≤ g a ∧ g a < n) :
    l.countP p = ∑ r ∈ Finset.range n, l.countP fun a => p a && g a = (r : ℤ) := by
  induction l with
  | nil => simp
  | cons a l ih =>
    have ih := ih fun b hb => h b (List.mem_cons_of_mem _ hb)
    simp only [List.countP_cons, Finset.sum_add_distrib, ← ih]
    congr 1
    by_cases hp : p a = true
    · -- The first element is counted at its own level and at no other.
      obtain ⟨hnonneg, hlt⟩ := h a List.mem_cons_self hp
      have hmem : (g a).toNat ∈ Finset.range n := Finset.mem_range.mpr (by omega)
      rw [Finset.sum_eq_single_of_mem _ hmem fun r _ hr => ?_]
      · simp [hp, hnonneg]
      · have hne : g a ≠ (r : ℤ) := by omega
        simp [hne]
    · simp [hp]

/-! ## Branching -/

section Branching

variable {pushed dispatched failed : ℕ → ℕ} {k : ℕ}

/-- Each member of a generation is dispatched `k` times at most, some of these fail, and every
member of the next generation comes from one that failed. So many members has a generation. -/
theorem pushed_le (hdispatched : ∀ r, dispatched r ≤ k * pushed r)
    (hfailed : ∀ r, failed r ≤ dispatched r) (hpushed : ∀ r, pushed (r + 1) ≤ failed r) (r : ℕ) :
    pushed r ≤ pushed 0 * k ^ r := by
  induction r with
  | zero => simp
  | succ r ih =>
    calc pushed (r + 1) ≤ k * pushed r := (hpushed r).trans ((hfailed r).trans (hdispatched r))
      _ ≤ k * (pushed 0 * k ^ r) := Nat.mul_le_mul_left k ih
      _ = pushed 0 * k ^ (r + 1) := by rw [pow_succ]; ring

/-- So often are its members dispatched. -/
theorem dispatched_le (hdispatched : ∀ r, dispatched r ≤ k * pushed r)
    (hfailed : ∀ r, failed r ≤ dispatched r) (hpushed : ∀ r, pushed (r + 1) ≤ failed r) (r : ℕ) :
    dispatched r ≤ pushed 0 * k ^ (r + 1) := by
  calc dispatched r ≤ k * pushed r := hdispatched r
    _ ≤ k * (pushed 0 * k ^ r) := Nat.mul_le_mul_left k (pushed_le hdispatched hfailed hpushed r)
    _ = pushed 0 * k ^ (r + 1) := by rw [pow_succ]; ring

/-- So often are those of the first `n` generations. -/
theorem sum_dispatched_le (hdispatched : ∀ r, dispatched r ≤ k * pushed r)
    (hfailed : ∀ r, failed r ≤ dispatched r) (hpushed : ∀ r, pushed (r + 1) ≤ failed r) (n : ℕ) :
    ∑ r ∈ Finset.range n, dispatched r ≤ pushed 0 * ∑ r ∈ Finset.range n, k ^ (r + 1) := by
  rw [Finset.mul_sum]
  exact Finset.sum_le_sum fun r _ => dispatched_le hdispatched hfailed hpushed r

end Branching

end Counting
