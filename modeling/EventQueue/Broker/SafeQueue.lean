import EventQueue.Broker.Message

/-!
# The bounded blocking queue

`SafeQueue` of `broker/include/SafeQueue.hpp`, at the granularity of its calls: `push` appends one
item and `tryPop` takes the oldest, each in one critical section of the queue's own mutex. A
`push` that finds the queue full waits on `not_full_`, which is `none` here: the step of the
calling thread is not enabled.
-/

namespace EventQueue.Broker

/-- A FIFO queue that holds at most `capacity` items. -/
structure SafeQueue (α : Type) where
  /-- The capacity that the queue was built with. -/
  capacity : ℕ
  /-- The items, oldest first. -/
  queue : List α
  /-- The queue never holds more than its capacity. -/
  bounded : queue.length ≤ capacity

namespace SafeQueue

variable {α : Type} {q q' : SafeQueue α} {x : α}

/-- The empty queue of a capacity. -/
def empty (capacity : ℕ) : SafeQueue α := ⟨capacity, [], Nat.zero_le _⟩

/-- `push`: append the item, or wait when the queue is full. -/
def push (q : SafeQueue α) (x : α) : Option (SafeQueue α) :=
  if h : q.queue.length < q.capacity then
    some ⟨q.capacity, q.queue ++ [x], by rw [List.length_append]; exact h⟩
  else none

/-- `try_pop_for`: take the oldest item; `none` when the queue stays empty until the timeout. -/
def tryPop (q : SafeQueue α) : Option (α × SafeQueue α) :=
  match h : q.queue with
  | [] => none
  | x :: xs => some (x, ⟨q.capacity, xs, by have := q.bounded; simp [h] at this; omega⟩)

/-- The number of items that can be pushed before the queue is full. -/
def free (q : SafeQueue α) : ℕ := q.capacity - q.queue.length

/-- A push that completes appends its item, and the queue had room for it. -/
theorem push_eq_some (h : q.push x = some q') :
    q'.queue = q.queue ++ [x] ∧ q'.capacity = q.capacity ∧ q.queue.length < q.capacity := by
  unfold push at h
  split_ifs at h with hlt
  obtain rfl := Option.some.inj h
  exact ⟨rfl, rfl, hlt⟩

/-- A push waits exactly when the queue is full. -/
theorem push_eq_none : q.push x = none ↔ q.queue.length = q.capacity := by
  have := q.bounded
  unfold push
  split_ifs with h
  · simp; omega
  · simp; omega

/-- A pop takes the head. -/
theorem tryPop_eq_some (h : q.tryPop = some (x, q')) :
    q.queue = x :: q'.queue ∧ q'.capacity = q.capacity := by
  unfold tryPop at h
  split at h
  · cases h
  · rename_i y ys hq
    obtain ⟨rfl, rfl⟩ := Prod.mk.inj (Option.some.inj h)
    exact ⟨hq, rfl⟩

/-- There is nothing to pop exactly when the queue is empty. -/
theorem tryPop_eq_none : q.tryPop = none ↔ q.queue = [] := by
  unfold tryPop
  split
  · rename_i hq
    simp [hq]
  · rename_i y ys hq
    simp [hq]

end SafeQueue

end EventQueue.Broker
