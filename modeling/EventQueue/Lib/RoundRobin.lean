import Mathlib.Data.List.Rotate

/-!
# Round robin

The one whose turn it is in a round robin over a list is the one at the index modulo the length
(`turn`), and `turns` are the ones who get a number of turns in a row. A whole round, wherever it
starts, is the list rotated, so that everybody gets one turn in it; `k` rounds are `k` turns each.
-/

namespace RoundRobin

variable {α : Type*} {l : List α}

/-- The one whose turn it is at an index; nobody in an empty list. -/
def turn (l : List α) (i : ℕ) : Option α := l[i % l.length]?

/-- The ones who get `k` turns in a row, from an index on. -/
def turns (l : List α) : ℕ → ℕ → List α
  | _, 0 => []
  | i, k + 1 => (turn l i).toList ++ turns l (i + 1) k

/-- Somebody in a list that is not empty has the turn. -/
theorem turn_eq_some (h : 0 < l.length) (i : ℕ) :
    turn l i = some (l.get ⟨i % l.length, Nat.mod_lt i h⟩) :=
  List.getElem?_eq_getElem (Nat.mod_lt i h)

/-- Turns in a row are some turns and then the others. -/
theorem turns_add (l : List α) (i j k : ℕ) :
    turns l i (j + k) = turns l i j ++ turns l (i + j) k := by
  induction j generalizing i with
  | zero => simp [turns]
  | succ j ih =>
    rw [Nat.add_right_comm, turns, turns, ih (i + 1), List.append_assoc,
      Nat.add_right_comm i 1 j, Nat.add_assoc i j 1]

/-- There are as many turns as were asked for. -/
theorem length_turns (h : 0 < l.length) (i k : ℕ) : (turns l i k).length = k := by
  induction k generalizing i with
  | zero => rfl
  | succ k ih =>
    rw [turns, turn_eq_some h, Option.toList_some, List.singleton_append, List.length_cons, ih]

/-- The turn at a place in the row. -/
theorem getElem?_turns (h : 0 < l.length) {i j k : ℕ} (hj : j < k) :
    (turns l i k)[j]? = turn l (i + j) := by
  induction k generalizing i j with
  | zero => omega
  | succ k ih =>
    rw [turns, turn_eq_some h, Option.toList_some, List.singleton_append]
    cases j with
    | zero => exact (turn_eq_some h i).symm
    | succ j => rw [List.getElem?_cons_succ, ih (by omega), Nat.add_right_comm, Nat.add_assoc]

/-- A whole round is the list, rotated. -/
theorem turns_length (l : List α) (i : ℕ) : turns l i l.length = l.rotate i := by
  rcases Nat.eq_zero_or_pos l.length with hnil | h
  · obtain rfl := List.length_eq_zero_iff.mp hnil
    rfl
  · refine List.ext_getElem? fun j => ?_
    rcases Nat.lt_or_ge j l.length with hj | hj
    · rw [getElem?_turns h hj, List.getElem?_rotate hj, turn, Nat.add_comm]
    · rw [List.getElem?_eq_none (by rwa [length_turns h]),
        List.getElem?_eq_none (by rwa [List.length_rotate])]

/-- In a number of whole rounds everybody gets that many turns. -/
theorem count_turns_mul [DecidableEq α] (l : List α) (i k : ℕ) (a : α) :
    (turns l i (k * l.length)).count a = k * l.count a := by
  induction k generalizing i with
  | zero => simp [turns]
  | succ k ih =>
    rw [Nat.succ_mul, Nat.add_comm, turns_add, List.count_append, turns_length, ih,
      (List.rotate_perm l i).count_eq, Nat.succ_mul, Nat.add_comm]

/-- As many turns in a row as the list is long are a whole round. -/
theorem take_drop_turns (h : 0 < l.length) {i j k : ℕ} (hj : j + l.length ≤ k) :
    ((turns l i k).drop j).take l.length = l.rotate (i + j) := by
  obtain ⟨rest, rfl⟩ := Nat.exists_eq_add_of_le hj
  rw [Nat.add_assoc, turns_add, List.drop_left' (length_turns h i j), turns_add,
    List.take_left' (length_turns h _ _), turns_length]

end RoundRobin
