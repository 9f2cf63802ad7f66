import EventQueue.Broker.SafeQueue
import EventQueue.Lib.Counting
import EventQueue.Lib.Transition

/-!
# The threads behind the queue

`SafeQueue` of `broker/include/SafeQueue.hpp` at the granularity of its mutex and its two condition
variables, for any number of threads that call `push`, `pop`, and `try_pop_for`. A wait is the loop
of the standard library: test the predicate under the mutex, release the mutex and block in one
step, wake up for a notification, for a timeout, or for no reason, take the mutex again, and test
again. `notify_one` comes after the mutex is released.

The rest of the broker sees the queue as `SafeQueue.lean` has it: each call takes effect in one
step. `Linearized` justifies that: every call has its effect at one moment between its invocation
and its response, and the effects in their order are a history of that queue. `Matched` says that no
thread sleeps through what it waits for. It counts: while a thread waits, every item (or free place)
is matched by a thread that has been woken for it or by a notification that is still to come.
-/

namespace EventQueue.Broker

open Transition (exec run_of_exec)

/-! ## Calls and their effects -/

/-- The calls. -/
inductive QueueOp (α : Type)
  | push (x : α)
  | pop
  | tryPopFor
deriving DecidableEq, Repr

/-- What a call does to the queue and returns. -/
inductive QueueEffect (α : Type)
  /-- The item was pushed. -/
  | pushed (x : α)
  /-- The item was popped, and is returned. -/
  | popped (x : α)
  /-- `try_pop_for` returns `nullopt`. -/
  | timedOut
deriving DecidableEq, Repr

/-- The two condition variables. -/
inductive CondVar
  | notFull
  | notEmpty
deriving DecidableEq, Repr

/-- The condition variable that a call waits on. -/
def QueueOp.cv {α : Type} : QueueOp α → CondVar
  | .push _ => .notFull
  | .pop | .tryPopFor => .notEmpty

/-- The condition variable that a call notifies after its effect. -/
def QueueEffect.signals {α : Type} : QueueEffect α → Option CondVar
  | .pushed _ => some .notEmpty
  | .popped _ => some .notFull
  | .timedOut => none

/-- The effects that a call can have. -/
inductive QueueOp.Permits {α : Type} : QueueOp α → QueueEffect α → Prop
  | push (x : α) : Permits (.push x) (.pushed x)
  | pop (x : α) : Permits .pop (.popped x)
  | tryPopFor (x : α) : Permits .tryPopFor (.popped x)
  | timedOut : Permits .tryPopFor .timedOut

/-- The items that were pushed, in order. -/
def pushes {α : Type} (effects : List (QueueEffect α)) : List α :=
  effects.filterMap fun
    | .pushed x => some x
    | _ => none

/-- The items that were popped, in order. -/
def pops {α : Type} (effects : List (QueueEffect α)) : List α :=
  effects.filterMap fun
    | .popped x => some x
    | _ => none

/-- The effects, in this order, that take the queue as its callers see it from empty to what it is.
A push does not complete on a full queue, a pop takes the oldest item, and `nullopt` is returned
only when there is none. -/
inductive SafeQueue.Legal {α : Type} (capacity : ℕ) : List (QueueEffect α) → SafeQueue α → Prop
  /-- No effect yet. -/
  | nil : Legal capacity [] (SafeQueue.empty capacity)
  /-- A push. -/
  | push {effects : List (QueueEffect α)} {q q' : SafeQueue α} {x : α}
      (h : Legal capacity effects q) (hpush : q.push x = some q') :
      Legal capacity (effects ++ [.pushed x]) q'
  /-- A pop. -/
  | pop {effects : List (QueueEffect α)} {q q' : SafeQueue α} {x : α}
      (h : Legal capacity effects q) (hpop : q.tryPop = some (x, q')) :
      Legal capacity (effects ++ [.popped x]) q'
  /-- A `try_pop_for` without an item. -/
  | timedOut {effects : List (QueueEffect α)} {q : SafeQueue α}
      (h : Legal capacity effects q) (hnone : q.tryPop = none) :
      Legal capacity (effects ++ [.timedOut]) q

/-- What was pushed is what was popped, in the same order, and then what is in the queue. -/
theorem SafeQueue.Legal.pushes_eq {α : Type} {capacity : ℕ} {effects : List (QueueEffect α)}
    {q : SafeQueue α} (h : Legal capacity effects q) :
    pushes effects = pops effects ++ q.queue := by
  induction h with
  | nil => rfl
  | @push effects q q' x _ hpush ih =>
    have hpushes : pushes (effects ++ [.pushed x]) = pushes effects ++ [x] := by simp [pushes]
    have hpops : pops (effects ++ [.pushed x]) = pops effects := by simp [pops]
    rw [hpushes, hpops, ih, (push_eq_some hpush).1, List.append_assoc]
  | pop _ hpop ih =>
    -- The oldest item goes from the queue to the end of what was popped.
    rw [(tryPop_eq_some hpop).1] at ih
    simpa [pushes, pops] using ih
  | timedOut _ _ ih => simpa [pushes, pops] using ih

/-- The capacity stays. -/
theorem SafeQueue.Legal.capacity_eq {α : Type} {capacity : ℕ} {effects : List (QueueEffect α)}
    {q : SafeQueue α} (h : Legal capacity effects q) : q.capacity = capacity := by
  induction h with
  | nil => rfl
  | push _ hpush ih => exact (push_eq_some hpush).2.1.trans ih
  | pop _ hpop ih => exact (tryPop_eq_some hpop).2.trans ih
  | timedOut _ _ ih => exact ih

/-! ## Histories -/

/-- What is recorded of the calls. -/
inductive QueueEntry (α : Type)
  /-- A thread makes a call. -/
  | invoke (i : ℕ) (op : QueueOp α)
  /-- A thread's call takes effect. -/
  | effect (i : ℕ) (e : QueueEffect α)
  /-- A thread's call returns. -/
  | respond (i : ℕ) (e : QueueEffect α)
deriving DecidableEq, Repr

/-- The thread that an entry is about. -/
def QueueEntry.thread {α : Type} : QueueEntry α → ℕ
  | .invoke i _ | .effect i _ | .respond i _ => i

/-- The effects of a history. -/
def effects {α : Type} (history : List (QueueEntry α)) : List (QueueEffect α) :=
  history.filterMap fun
    | .effect _ e => some e
    | _ => none

/-- How far a thread's last call has got. -/
inductive CallStatus (α : Type)
  /-- It has returned, or there was none. -/
  | returned
  /-- It has had no effect yet. -/
  | called (op : QueueOp α)
  /-- It has had its effect. -/
  | effected (e : QueueEffect α)
deriving DecidableEq, Repr

/-- What a history says of one thread: its calls come one after the other, and each has one effect
that the call permits, between its invocation and its response, and responds with it. -/
inductive Calls {α : Type} (i : ℕ) : List (QueueEntry α) → CallStatus α → Prop
  | nil : Calls i [] .returned
  | other {history : List (QueueEntry α)} {status : CallStatus α} {x : QueueEntry α}
      (h : Calls i history status) (hx : x.thread ≠ i) : Calls i (history ++ [x]) status
  | invoke {history : List (QueueEntry α)} {op : QueueOp α} (h : Calls i history .returned) :
      Calls i (history ++ [.invoke i op]) (.called op)
  | effect {history : List (QueueEntry α)} {op : QueueOp α} {e : QueueEffect α}
      (h : Calls i history (.called op)) (he : op.Permits e) :
      Calls i (history ++ [.effect i e]) (.effected e)
  | respond {history : List (QueueEntry α)} {e : QueueEffect α}
      (h : Calls i history (.effected e)) : Calls i (history ++ [.respond i e]) .returned

/-! ## The monitor -/

/-- Where a thread stands in its call. `woken` tells that it has come out of a wait, and has not
taken effect or gone back to waiting since. -/
inductive CallPhase (α : Type)
  /-- Not in a call. -/
  | idle
  /-- Before the mutex. -/
  | enter (op : QueueOp α)
  /-- Holds the mutex, before the test of the predicate; `timedOut` is what the wait returned. -/
  | test (op : QueueOp α) (woken timedOut : Bool)
  /-- Holds the mutex, found that it has to wait. -/
  | park (op : QueueOp α)
  /-- Blocked, and not notified. -/
  | waiting (op : QueueOp α)
  /-- No longer blocked, before the mutex. -/
  | unblocked (op : QueueOp α)
  /-- Holds the mutex, found the predicate true; before the change of `queue_`. -/
  | act (op : QueueOp α) (woken : Bool)
  /-- Holds the mutex, after its effect. -/
  | unlock (e : QueueEffect α)
  /-- Before `notify_one`, without the mutex. -/
  | notify (e : QueueEffect α)
deriving DecidableEq, Repr

namespace CallPhase

variable {α : Type}

/-- The thread holds the mutex. -/
def holds : CallPhase α → Bool
  | .test .. | .park _ | .act .. | .unlock _ => true
  | _ => false

/-- The thread waits on a condition variable, and was not notified. -/
def waitsOn (cv : CondVar) : CallPhase α → Bool
  | .waiting op => op.cv = cv
  | _ => false

/-- The thread was woken from a wait on a condition variable, and has neither taken effect nor gone
back to waiting. -/
def wokenFor (cv : CondVar) : CallPhase α → Bool
  | .unblocked op | .test op true _ | .act op true => op.cv = cv
  | _ => false

/-- The thread is to notify a condition variable. -/
def owes (cv : CondVar) : CallPhase α → Bool
  | .unlock e | .notify e => e.signals = some cv
  | _ => false

/-- How far the thread's call has got. -/
def status : CallPhase α → CallStatus α
  | .idle => .returned
  | .enter op | .test op _ _ | .park op | .waiting op | .unblocked op | .act op _ => .called op
  | .unlock e | .notify e => .effected e

end CallPhase

/-- The queue with its mutex and its threads. -/
structure QueueMonitor (α : Type) where
  /-- `capacity_`. -/
  capacity : ℕ
  /-- `queue_`, oldest first. -/
  queue : List α
  /-- The thread that holds `mu_`. -/
  owner : Option ℕ
  /-- The threads. -/
  threads : List (CallPhase α)
  /-- Ghost: the history of the calls. -/
  history : List (QueueEntry α)
deriving DecidableEq, Repr

/-- A step of a thread, or a wake-up. -/
inductive QueueAction (α : Type)
  /-- A thread makes a call. -/
  | call (i : ℕ) (op : QueueOp α)
  /-- A thread takes the mutex; after a wait, `timedOut` is what the wait returns. -/
  | lock (i : ℕ) (timedOut : Bool)
  /-- A thread tests its predicate. -/
  | check (i : ℕ)
  /-- A thread releases the mutex and blocks. -/
  | wait (i : ℕ)
  /-- A thread wakes up for a timeout, or for no reason. -/
  | wake (i : ℕ)
  /-- A thread changes `queue_`. -/
  | change (i : ℕ)
  /-- A thread releases the mutex. -/
  | unlock (i : ℕ)
  /-- A thread calls `notify_one`, which wakes one thread up if there is one. -/
  | notify (i : ℕ) (target : Option ℕ)
deriving DecidableEq, Repr

namespace QueueMonitor

variable {α : Type}

/-- The queue at its construction, and some threads that have made no call. -/
def init (capacity n : ℕ) : QueueMonitor α := ⟨capacity, [], none, List.replicate n .idle, []⟩

/-- The predicate of a wait. -/
def ready (s : QueueMonitor α) : CondVar → Bool
  | .notFull => s.queue.length < s.capacity
  | .notEmpty => !s.queue.isEmpty

/-- The monitor with a thread at another place. -/
def goTo (s : QueueMonitor α) (i : ℕ) (phase : CallPhase α) : QueueMonitor α :=
  { s with threads := s.threads.set i phase }

/-- The monitor with one more entry in its history. -/
def record (s : QueueMonitor α) (x : QueueEntry α) : QueueMonitor α :=
  { s with history := s.history ++ [x] }

/-- One step; `none` when it is not possible. A wait that is not timed does not time out. A pop from
an empty queue, which the language leaves undefined, is no step. -/
def step (s : QueueMonitor α) : QueueAction α → Option (QueueMonitor α)
  | .call i op =>
    match s.threads[i]? with
    | some .idle => some ((s.goTo i (.enter op)).record (.invoke i op))
    | _ => none
  | .lock i timedOut =>
    match s.owner, s.threads[i]? with
    | none, some (.enter op) => some { s.goTo i (.test op false false) with owner := some i }
    | none, some (.unblocked .tryPopFor) =>
      some { s.goTo i (.test .tryPopFor true timedOut) with owner := some i }
    | none, some (.unblocked op) => some { s.goTo i (.test op true false) with owner := some i }
    | _, _ => none
  | .check i =>
    match s.threads[i]? with
    | some (.test op woken timedOut) =>
      -- The predicate is tested before the timeout is looked at, as `wait_for` does.
      if s.ready op.cv then some (s.goTo i (.act op woken))
      else if timedOut then some ((s.goTo i (.unlock .timedOut)).record (.effect i .timedOut))
      else some (s.goTo i (.park op))
    | _ => none
  | .wait i =>
    match s.threads[i]? with
    | some (.park op) => some { s.goTo i (.waiting op) with owner := none }
    | _ => none
  | .wake i =>
    match s.threads[i]? with
    | some (.waiting op) => some (s.goTo i (.unblocked op))
    | _ => none
  | .change i =>
    match s.threads[i]? with
    | some (.act (.push x) _) =>
      some ({ s.goTo i (.unlock (.pushed x)) with queue := s.queue ++ [x] }.record
        (.effect i (.pushed x)))
    | some (.act _ _) =>
      -- `front` and `pop` of an empty queue are undefined.
      match s.queue with
      | [] => none
      | x :: queue =>
        some ({ s.goTo i (.unlock (.popped x)) with queue }.record (.effect i (.popped x)))
    | _ => none
  | .unlock i =>
    match s.threads[i]? with
    | some (.unlock .timedOut) =>
      some ({ s.goTo i .idle with owner := none }.record (.respond i .timedOut))
    | some (.unlock e) => some { s.goTo i (.notify e) with owner := none }
    | _ => none
  | .notify i target =>
    match s.threads[i]? with
    | some (.notify e) =>
      match target with
      | none =>
        -- Nobody waits.
        if s.threads.all fun p => !e.signals.any fun cv => p.waitsOn cv then
          some ((s.goTo i .idle).record (.respond i e))
        else none
      | some j =>
        match s.threads[j]? with
        | some (.waiting op) =>
          if e.signals = some op.cv then
            some (((s.goTo j (.unblocked op)).goTo i .idle).record (.respond i e))
          else none
        | _ => none
    | _ => none

/-- What a step does. -/
inductive Moves (s : QueueMonitor α) : QueueMonitor α → Prop
  /-- A call begins. -/
  | call (i : ℕ) (op : QueueOp α) (hi : s.threads[i]? = some .idle) :
      Moves s ((s.goTo i (.enter op)).record (.invoke i op))
  /-- A call takes the mutex for the first time. -/
  | lock (i : ℕ) (op : QueueOp α) (hfree : s.owner = none) (hi : s.threads[i]? = some (.enter op)) :
      Moves s { s.goTo i (.test op false false) with owner := some i }
  /-- A call takes the mutex again after a wait, which has timed out or not. -/
  | relock (i : ℕ) (op : QueueOp α) (timedOut : Bool) (hfree : s.owner = none)
      (hi : s.threads[i]? = some (.unblocked op)) (htimed : timedOut = true → op = .tryPopFor) :
      Moves s { s.goTo i (.test op true timedOut) with owner := some i }
  /-- The predicate is true. -/
  | ready (i : ℕ) (op : QueueOp α) (woken timedOut : Bool)
      (hi : s.threads[i]? = some (.test op woken timedOut)) (hready : s.ready op.cv = true) :
      Moves s (s.goTo i (.act op woken))
  /-- The predicate is false after the timeout. -/
  | expire (i : ℕ) (op : QueueOp α) (woken : Bool)
      (hi : s.threads[i]? = some (.test op woken true)) (hready : s.ready op.cv = false) :
      Moves s ((s.goTo i (.unlock .timedOut)).record (.effect i .timedOut))
  /-- The predicate is false. -/
  | park (i : ℕ) (op : QueueOp α) (woken : Bool)
      (hi : s.threads[i]? = some (.test op woken false)) (hready : s.ready op.cv = false) :
      Moves s (s.goTo i (.park op))
  /-- A call releases the mutex and blocks. -/
  | wait (i : ℕ) (op : QueueOp α) (hi : s.threads[i]? = some (.park op)) :
      Moves s { s.goTo i (.waiting op) with owner := none }
  /-- A wait ends without a notification. -/
  | wake (i : ℕ) (op : QueueOp α) (hi : s.threads[i]? = some (.waiting op)) :
      Moves s (s.goTo i (.unblocked op))
  /-- An item is pushed. -/
  | push (i : ℕ) (x : α) (woken : Bool) (hi : s.threads[i]? = some (.act (.push x) woken)) :
      Moves s ({ s.goTo i (.unlock (.pushed x)) with queue := s.queue ++ [x] }.record
        (.effect i (.pushed x)))
  /-- An item is popped. -/
  | pop (i : ℕ) (op : QueueOp α) (woken : Bool) (x : α) (queue : List α)
      (hi : s.threads[i]? = some (.act op woken)) (hop : op.cv = .notEmpty)
      (hqueue : s.queue = x :: queue) :
      Moves s ({ s.goTo i (.unlock (.popped x)) with queue }.record (.effect i (.popped x)))
  /-- A call returns `nullopt`. -/
  | giveUp (i : ℕ) (hi : s.threads[i]? = some (.unlock .timedOut)) :
      Moves s ({ s.goTo i .idle with owner := none }.record (.respond i .timedOut))
  /-- A call releases the mutex after its change. -/
  | unlock (i : ℕ) (e : QueueEffect α) (cv : CondVar) (hi : s.threads[i]? = some (.unlock e))
      (hcv : e.signals = some cv) : Moves s { s.goTo i (.notify e) with owner := none }
  /-- A call notifies nobody, since nobody waits, and returns. -/
  | notifyNone (i : ℕ) (e : QueueEffect α) (hi : s.threads[i]? = some (.notify e))
      (hnone : ∀ cv, e.signals = some cv → s.threads.countP (CallPhase.waitsOn cv) = 0) :
      Moves s ((s.goTo i .idle).record (.respond i e))
  /-- A call notifies a thread that waits, and returns. -/
  | notifyOne (i : ℕ) (e : QueueEffect α) (j : ℕ) (op : QueueOp α)
      (hi : s.threads[i]? = some (.notify e)) (hj : s.threads[j]? = some (.waiting op))
      (hcv : e.signals = some op.cv) :
      Moves s (((s.goTo j (.unblocked op)).goTo i .idle).record (.respond i e))

variable {s t : QueueMonitor α} {a : QueueAction α}

/-- Every step is one of these. -/
theorem moves_of_step (h : s.step a = some t) : Moves s t := by
  cases a with
  | call i op =>
    simp only [step] at h
    split at h
    · rename_i hi
      obtain rfl := Option.some.inj h
      exact .call i op hi
    · cases h
  | lock i timedOut =>
    simp only [step] at h
    split at h
    · rename_i op hfree hi
      obtain rfl := Option.some.inj h
      exact .lock i op hfree hi
    · rename_i hfree hi
      obtain rfl := Option.some.inj h
      exact .relock i .tryPopFor timedOut hfree hi fun _ => rfl
    · rename_i op _ hfree hi
      obtain rfl := Option.some.inj h
      exact .relock i op false hfree hi (by simp)
    · cases h
  | check i =>
    simp only [step] at h
    split at h
    · -- The predicate is true, or it is false after the timeout, or it is false.
      rename_i op woken timedOut hi
      split_ifs at h with hready htimed
      · obtain rfl := Option.some.inj h
        exact .ready i op woken timedOut hi hready
      · obtain rfl := Option.some.inj h
        subst htimed
        exact .expire i op woken hi (Bool.eq_false_iff.mpr hready)
      · obtain rfl := Option.some.inj h
        obtain rfl := Bool.eq_false_iff.mpr htimed
        exact .park i op woken hi (Bool.eq_false_iff.mpr hready)
    · cases h
  | wait i =>
    simp only [step] at h
    split at h
    · rename_i op hi
      obtain rfl := Option.some.inj h
      exact .wait i op hi
    · cases h
  | wake i =>
    simp only [step] at h
    split at h
    · rename_i op hi
      obtain rfl := Option.some.inj h
      exact .wake i op hi
    · cases h
  | change i =>
    simp only [step] at h
    split at h
    · rename_i x woken hi
      obtain rfl := Option.some.inj h
      exact .push i x woken hi
    · -- A pop of either kind.
      rename_i op woken hpush hi
      split at h
      · cases h
      · rename_i x queue hqueue
        obtain rfl := Option.some.inj h
        refine .pop i op woken x queue hi ?_ hqueue
        cases op with
        | push y => exact absurd rfl (hpush y)
        | pop | tryPopFor => rfl
    · cases h
  | unlock i =>
    simp only [step] at h
    split at h
    · rename_i hi
      obtain rfl := Option.some.inj h
      exact .giveUp i hi
    · rename_i e htimed hi
      obtain rfl := Option.some.inj h
      cases e with
      | pushed x => exact .unlock i _ .notEmpty hi rfl
      | popped x => exact .unlock i _ .notFull hi rfl
      | timedOut => exact absurd rfl htimed
    · cases h
  | notify i target =>
    simp only [step] at h
    split at h
    · rename_i e hi
      split at h
      · split_ifs at h with hall
        obtain rfl := Option.some.inj h
        refine .notifyNone i e hi fun cv hcv => ?_
        simpa [hcv, List.countP_eq_zero] using hall
      · rename_i j
        split at h
        · rename_i op hj
          split_ifs at h with hcv
          obtain rfl := Option.some.inj h
          exact .notifyOne i e j op hi hj hcv
        · cases h
    · cases h

/-! ## The mutex, and what is known under it -/

variable {i : ℕ} {p p' : CallPhase α}

/-- A thread after one has moved on is that one, or stands where it stood. -/
theorem getElem?_goTo {k : ℕ} {q : CallPhase α} (h : (s.goTo i p).threads[k]? = some q) :
    k = i ∧ q = p ∨ k ≠ i ∧ s.threads[k]? = some q := by
  rw [goTo, List.getElem?_set] at h
  split_ifs at h with hk hlt
  · exact .inl ⟨hk.symm, (Option.some.inj h).symm⟩
  · exact .inr ⟨fun heq => hk heq.symm, h⟩

/-- A thread that notifies another stays where it is when that one goes on. -/
theorem getElem?_goTo_notified {e : QueueEffect α} {j : ℕ} {op : QueueOp α}
    (hi : s.threads[i]? = some (.notify e)) (hj : s.threads[j]? = some (.waiting op)) :
    (s.goTo j (.unblocked op)).threads[i]? = some (.notify e) := by
  have hne : j ≠ i := by
    rintro rfl
    rw [hi] at hj
    cases hj
  rw [goTo, List.getElem?_set_ne hne, hi]

/-- The thread that holds the mutex is its owner. -/
def Exclusive (s : QueueMonitor α) : Prop :=
  ∀ i p, s.threads[i]? = some p → (p.holds = true ↔ s.owner = some i)

/-- A thread moves on with the mutex, or without it. -/
theorem Exclusive.goTo (h : s.Exclusive) (hi : s.threads[i]? = some p)
    (hsame : p'.holds = p.holds) : (s.goTo i p').Exclusive := by
  intro k q hk
  rcases getElem?_goTo hk with ⟨rfl, rfl⟩ | ⟨-, hk⟩
  · rw [hsame]
    exact h k p hi
  · exact h k q hk

/-- A thread takes the mutex. -/
theorem Exclusive.acquire (h : s.Exclusive) (hfree : s.owner = none) (hp : p.holds = true) :
    Exclusive { s.goTo i p with owner := some i } := by
  intro k q hk
  rcases getElem?_goTo hk with ⟨rfl, rfl⟩ | ⟨hne, hk⟩
  · simp [hp]
  · -- The mutex was free, so no other thread held it.
    have hnot : ¬q.holds = true := by
      rw [h k q hk, hfree]
      simp
    simp [hnot, Ne.symm hne]

/-- A thread releases the mutex. -/
theorem Exclusive.release (h : s.Exclusive) (hi : s.threads[i]? = some p) (hp : p.holds = true)
    (hp' : p'.holds = false) : Exclusive { s.goTo i p' with owner := none } := by
  have howner : s.owner = some i := (h i p hi).mp hp
  intro k q hk
  rcases getElem?_goTo hk with ⟨rfl, rfl⟩ | ⟨hne, hk⟩
  · simp [hp']
  · -- The mutex was this thread's, so it is no other's.
    have hnot : ¬q.holds = true := by
      rw [h k q hk, howner]
      simpa using Ne.symm hne
    simp [hnot]

/-- One thread at a time holds the mutex. -/
theorem Exclusive.move (h : s.Exclusive) (hmove : Moves s t) : t.Exclusive := by
  cases hmove with
  | call i op hi => exact h.goTo hi rfl
  | lock i op hfree hi => exact h.acquire hfree rfl
  | relock i op timedOut hfree hi htimed => exact h.acquire hfree rfl
  | ready i op woken timedOut hi hready => exact h.goTo hi rfl
  | expire i op woken hi hready => exact h.goTo hi rfl
  | park i op woken hi hready => exact h.goTo hi rfl
  | wait i op hi => exact h.release hi rfl rfl
  | wake i op hi => exact h.goTo hi rfl
  | push i x woken hi => exact h.goTo hi rfl
  | pop i op woken x queue hi hop hqueue => exact h.goTo hi rfl
  | giveUp i hi => exact h.release hi rfl rfl
  | unlock i e cv hi hcv => exact h.release hi rfl rfl
  | notifyNone i e hi hnone => exact h.goTo hi rfl
  | notifyOne i e j op hi hj hcv =>
    have hi' := getElem?_goTo_notified hi hj
    have hwoken : (s.goTo j (.unblocked op)).Exclusive := h.goTo hj rfl
    exact hwoken.goTo hi' rfl

/-- What a thread knows of the queue by where it stands. -/
def Knows (s : QueueMonitor α) : CallPhase α → Prop
  | .test op _ timedOut => timedOut = true → op = .tryPopFor
  | .park op => s.ready op.cv = false
  | .act op _ => s.ready op.cv = true
  | .unlock .timedOut => s.queue = []
  | _ => True

/-- It is about the queue. -/
theorem Knows.of_queue (h : s.Knows p) (hqueue : t.queue = s.queue)
    (hcapacity : t.capacity = s.capacity) : t.Knows p := by
  have hready : ∀ cv, t.ready cv = s.ready cv := by
    intro cv
    cases cv <;> simp [ready, hqueue, hcapacity]
  cases p with
  | park op | act op => exact (hready _).trans h
  | unlock e =>
    cases e with
    | timedOut => exact hqueue.trans h
    | pushed | popped => trivial
  | test => exact h
  | idle | enter | waiting | unblocked | notify => trivial

/-- Without the mutex nothing is known. -/
theorem knows_of_not_holds (h : p.holds = false) : s.Knows p := by
  cases p <;> trivial

/-- The mutex protects what the threads know. -/
def Informed (s : QueueMonitor α) : Prop :=
  ∀ (i : ℕ) (p : CallPhase α), s.threads[i]? = some p → s.Knows p

/-- A thread moves on, and the queue stays. -/
theorem Informed.goTo (h : s.Informed) (hp : s.Knows p) (hqueue : t.queue = s.queue)
    (hcapacity : t.capacity = s.capacity) (hthreads : t.threads = s.threads.set i p) :
    t.Informed := by
  intro k q hk
  rw [hthreads] at hk
  rcases getElem?_goTo hk with ⟨rfl, rfl⟩ | ⟨-, hk⟩
  · exact hp.of_queue hqueue hcapacity
  · exact (h k q hk).of_queue hqueue hcapacity

/-- A thread changes the queue: the others do not hold the mutex. -/
theorem Informed.change (hex : s.Exclusive) (hi : s.threads[i]? = some p) (hp : p.holds = true)
    (hthreads : t.threads = s.threads.set i p') (hp' : t.Knows p') : t.Informed := by
  have howner : s.owner = some i := (hex i p hi).mp hp
  intro k q hk
  rw [hthreads] at hk
  rcases getElem?_goTo hk with ⟨rfl, rfl⟩ | ⟨hne, hk⟩
  · exact hp'
  · -- Whoever knows something holds the mutex, and that is the thread that changes the queue.
    refine knows_of_not_holds (Bool.eq_false_iff.mpr ?_)
    rw [ne_eq, hex k q hk, howner]
    simpa using Ne.symm hne

/-- Every step keeps what the threads know true. -/
theorem Informed.move (h : s.Informed) (hex : s.Exclusive) (hmove : Moves s t) : t.Informed := by
  cases hmove with
  | call i op hi => exact h.goTo (p := .enter op) trivial rfl rfl rfl
  | lock i op hfree hi => exact h.goTo (p := .test op false false) (by simp [Knows]) rfl rfl rfl
  | relock i op timedOut hfree hi htimed =>
    exact h.goTo (p := .test op true timedOut) htimed rfl rfl rfl
  | ready i op woken timedOut hi hready =>
    exact h.goTo (p := .act op woken) hready rfl rfl rfl
  | expire i op woken hi hready =>
    obtain rfl : op = .tryPopFor := h i _ hi rfl
    have hempty : s.queue = [] := by simpa [QueueMonitor.ready, QueueOp.cv] using hready
    exact h.goTo (p := .unlock .timedOut) hempty rfl rfl rfl
  | park i op woken hi hready => exact h.goTo (p := .park op) hready rfl rfl rfl
  | wait i op hi => exact h.goTo (p := .waiting op) trivial rfl rfl rfl
  | wake i op hi => exact h.goTo (p := .unblocked op) trivial rfl rfl rfl
  | push i x woken hi => exact .change hex hi rfl rfl trivial
  | pop i op woken x queue hi hop hqueue => exact .change hex hi rfl rfl trivial
  | giveUp i hi => exact h.goTo (p := .idle) trivial rfl rfl rfl
  | unlock i e cv hi hcv => exact h.goTo (p := .notify e) trivial rfl rfl rfl
  | notifyNone i e hi hnone => exact h.goTo (p := .idle) trivial rfl rfl rfl
  | notifyOne i e j op hi hj hcv =>
    have hwoken : (s.goTo j (.unblocked op)).Informed :=
      h.goTo (p := .unblocked op) trivial rfl rfl rfl
    exact hwoken.goTo (p := .idle) trivial rfl rfl rfl

/-! ## No lost wake-up -/

/-- How many calls that wait on a condition variable could go on: items, or free places. -/
def available (s : QueueMonitor α) : CondVar → ℕ
  | .notFull => s.capacity - s.queue.length
  | .notEmpty => s.queue.length

/-- The predicate of a wait is true when one of them could. -/
theorem ready_iff (s : QueueMonitor α) (cv : CondVar) : s.ready cv = true ↔ 0 < s.available cv := by
  cases cv with
  | notFull => simp [ready, available]
  | notEmpty => simp [ready, available, List.length_pos_iff]

/-- While a thread waits, every call that could go on is matched by a thread that was woken for it
or by a notification to come. -/
def Matched (s : QueueMonitor α) (cv : CondVar) : Prop :=
  s.threads.countP (CallPhase.waitsOn cv) = 0 ∨
    s.available cv ≤
      s.threads.countP (CallPhase.wokenFor cv) + s.threads.countP (CallPhase.owes cv)

variable {cv : CondVar}

/-- Nothing is to be matched while no call could go on. -/
theorem matched_of_not_ready (h : t.ready cv = false) : t.Matched cv := by
  have hzero : ¬0 < t.available cv := by
    rw [← ready_iff, h]
    simp
  exact .inr (by omega)

/-- A thread moves on. It does not begin to wait, and takes no more from those who were woken or are
to notify than from what is available. -/
theorem Matched.goTo (h : s.Matched cv) (hi : s.threads[i]? = some p)
    (hthreads : t.threads = s.threads.set i p')
    (hwaits : (p'.waitsOn cv).toNat ≤ (p.waitsOn cv).toNat)
    (hmatch : t.available cv + (p.wokenFor cv).toNat + (p.owes cv).toNat ≤
      s.available cv + (p'.wokenFor cv).toNat + (p'.owes cv).toNat) : t.Matched cv := by
  -- How the three counts change when one thread moves on.
  have hw := Counting.countP_set_add (CallPhase.waitsOn cv) hi p'
  have hk := Counting.countP_set_add (CallPhase.wokenFor cv) hi p'
  have ho := Counting.countP_set_add (CallPhase.owes cv) hi p'
  unfold Matched at h ⊢
  rw [hthreads]
  omega

/-- A thread that finds its predicate false, or begins to wait under it, matters to its own
condition variable only, for which nothing is available. -/
theorem Matched.goTo_not_ready (h : s.Matched cv) {op : QueueOp α} (hi : s.threads[i]? = some p)
    (hthreads : t.threads = s.threads.set i p') (hready : s.ready op.cv = false)
    (hqueue : t.queue = s.queue) (hcapacity : t.capacity = s.capacity)
    (hp : ∀ cv, op.cv ≠ cv → p.wokenFor cv = false ∧ p.owes cv = false)
    (hp' : ∀ cv, op.cv ≠ cv → p'.waitsOn cv = false) : t.Matched cv := by
  have havailable : t.available cv = s.available cv := by
    cases cv <;> simp [available, hqueue, hcapacity]
  by_cases hcv : op.cv = cv
  · -- Its own condition variable: nothing is available there.
    refine matched_of_not_ready ?_
    rw [Bool.eq_false_iff, ne_eq, ready_iff, havailable, ← ready_iff, ← hcv, hready]
    simp
  · -- The other one: the thread does not count there.
    refine h.goTo hi hthreads ?_ ?_
    · rw [hp' cv hcv]
      simp
    · rw [havailable, (hp cv hcv).1, (hp cv hcv).2]
      simp only [Bool.toNat_false]
      omega

/-- Every step keeps what is available matched. -/
theorem Matched.move (h : s.Matched cv) (hinf : s.Informed) (hmove : Moves s t) : t.Matched cv := by
  cases hmove with
  | call i op hi => exact h.goTo hi rfl le_rfl le_rfl
  | lock i op hfree hi => exact h.goTo hi rfl le_rfl le_rfl
  | relock i op timedOut hfree hi htimed => exact h.goTo hi rfl le_rfl le_rfl
  | ready i op woken timedOut hi hready =>
    refine h.goTo hi rfl le_rfl ?_
    cases woken <;> exact le_rfl
  | expire i op woken hi hready =>
    refine h.goTo_not_ready hi rfl hready rfl rfl (fun cv hcv => ?_) fun cv hcv => rfl
    cases woken <;> simp [CallPhase.wokenFor, CallPhase.owes, hcv]
  | park i op woken hi hready =>
    refine h.goTo_not_ready hi rfl hready rfl rfl (fun cv hcv => ?_) fun cv hcv => rfl
    cases woken <;> simp [CallPhase.wokenFor, CallPhase.owes, hcv]
  | wait i op hi =>
    have hready : s.ready op.cv = false := hinf i _ hi
    refine h.goTo_not_ready hi rfl hready rfl rfl (fun cv hcv => ⟨rfl, rfl⟩) fun cv hcv => ?_
    simp [CallPhase.waitsOn, hcv]
  | wake i op hi =>
    refine h.goTo hi rfl (by simp [CallPhase.waitsOn]) ?_
    simp [available, QueueMonitor.goTo, CallPhase.wokenFor, CallPhase.owes]
  | push i x woken hi =>
    -- One place less, which the call may have been woken for, and one item more, which it
    -- announces.
    have hroom : s.ready .notFull = true := hinf i _ hi
    have hroom : s.queue.length < s.capacity := by simpa [QueueMonitor.ready] using hroom
    refine h.goTo hi rfl le_rfl ?_
    cases cv with
    | notFull =>
      cases woken <;>
        simp [available, record, QueueMonitor.goTo, CallPhase.wokenFor, CallPhase.owes, QueueOp.cv,
          QueueEffect.signals] <;> omega
    | notEmpty =>
      cases woken <;>
        simp [available, record, QueueMonitor.goTo, CallPhase.wokenFor, CallPhase.owes, QueueOp.cv,
          QueueEffect.signals]
  | pop i op woken x queue hi hop hqueue =>
    -- The other way round.
    refine h.goTo hi rfl le_rfl ?_
    cases cv with
    | notFull =>
      cases woken <;>
        simp [available, record, QueueMonitor.goTo, CallPhase.wokenFor, CallPhase.owes, hop,
          QueueEffect.signals, hqueue] <;> omega
    | notEmpty =>
      cases woken <;>
        simp [available, record, QueueMonitor.goTo, CallPhase.wokenFor, CallPhase.owes, hop,
          QueueEffect.signals, hqueue]
  | giveUp i hi => exact h.goTo hi rfl le_rfl le_rfl
  | unlock i e cv hi hcv => exact h.goTo hi rfl le_rfl le_rfl
  | notifyNone i e hi hnone =>
    by_cases hcv : e.signals = some cv
    · -- nobody waits, and the thread that notifies does not begin to
      have hw := Counting.countP_set_add (CallPhase.waitsOn cv) hi .idle
      have hzero := hnone cv hcv
      refine .inl ?_
      simp only [CallPhase.waitsOn, Bool.toNat_false] at hw
      show (s.threads.set i .idle).countP _ = 0
      omega
    · refine h.goTo hi rfl le_rfl ?_
      simp [available, record, QueueMonitor.goTo, CallPhase.wokenFor, CallPhase.owes, hcv]
  | notifyOne i e j op hi hj hcv =>
    have hi' : (s.threads.set j (.unblocked op))[i]? = some (.notify e) :=
      getElem?_goTo_notified hi hj
    -- One thread less waits and one more is woken; one owes a notification less.
    have hw := Counting.countP_set_add (CallPhase.waitsOn cv) hj (.unblocked op)
    have hk := Counting.countP_set_add (CallPhase.wokenFor cv) hj (.unblocked op)
    have ho := Counting.countP_set_add (CallPhase.owes cv) hj (.unblocked op)
    have hw' := Counting.countP_set_add (CallPhase.waitsOn cv) hi' .idle
    have hk' := Counting.countP_set_add (CallPhase.wokenFor cv) hi' .idle
    have ho' := Counting.countP_set_add (CallPhase.owes cv) hi' .idle
    have hav : ((((s.goTo j (.unblocked op)).goTo i .idle).record (.respond i e)).available cv) =
        s.available cv := by cases cv <;> rfl
    unfold Matched at h ⊢
    rw [hav]
    simp only [record, QueueMonitor.goTo]
    simp only [CallPhase.waitsOn, CallPhase.wokenFor, CallPhase.owes, hcv, Option.some.injEq,
      Bool.toNat_false] at hw hk ho hw' hk' ho'
    omega

/-! ## Linearizability -/

/-- How far a thread's call has got; a thread that does not exist has made none. -/
def statusAt (s : QueueMonitor α) (i : ℕ) : CallStatus α :=
  (s.threads[i]?.map CallPhase.status).getD .returned

theorem statusAt_eq (hi : s.threads[i]? = some p) : s.statusAt i = p.status := by
  simp [statusAt, hi]

/-- One thread's status changes with its place. -/
theorem statusAt_set (hi : s.threads[i]? = some p) (hthreads : t.threads = s.threads.set i p')
    (k : ℕ) : t.statusAt k = if k = i then p'.status else s.statusAt k := by
  have hlt : i < s.threads.length := (List.getElem?_eq_some_iff.mp hi).1
  unfold statusAt
  rw [hthreads, List.getElem?_set]
  by_cases hk : i = k
  · subst hk
    simp [hlt]
  · simp [hk, Ne.symm hk]

/-- The effects are a history of the queue as its callers see it, which leads to what is in it, and
every thread's calls are as they should be. -/
structure Linearized (s : QueueMonitor α) : Prop where
  /-- The effects, in order, are those of a queue that takes them one at a time. -/
  legal : ∃ q, SafeQueue.Legal s.capacity (effects s.history) q ∧ q.queue = s.queue
  /-- Each call has its effect between its invocation and its response. -/
  calls : ∀ i, Calls i s.history (s.statusAt i)

/-- A thread moves on within its call. -/
theorem Linearized.goTo (h : s.Linearized) (hi : s.threads[i]? = some p)
    (hthreads : t.threads = s.threads.set i p') (hstatus : p'.status = p.status)
    (hqueue : t.queue = s.queue) (hcapacity : t.capacity = s.capacity)
    (hhistory : t.history = s.history) : t.Linearized := by
  constructor
  · rw [hhistory, hqueue, hcapacity]
    exact h.legal
  · intro k
    rw [statusAt_set hi hthreads, hhistory]
    split_ifs with hk
    · subst hk
      rw [hstatus, ← statusAt_eq hi]
      exact h.calls k
    · exact h.calls k

/-- A thread's call begins, takes effect, or returns. -/
theorem Linearized.record (h : s.Linearized) {x : QueueEntry α} (hi : s.threads[i]? = some p)
    (hthreads : t.threads = s.threads.set i p') (hx : x.thread = i)
    (hhistory : t.history = s.history ++ [x])
    (hcall : Calls i s.history p.status → Calls i (s.history ++ [x]) p'.status)
    (hlegal : ∀ q, SafeQueue.Legal s.capacity (effects s.history) q → q.queue = s.queue →
      ∃ q', SafeQueue.Legal t.capacity (effects (s.history ++ [x])) q' ∧ q'.queue = t.queue) :
    t.Linearized := by
  constructor
  · rw [hhistory]
    obtain ⟨q, hq, hqueue⟩ := h.legal
    exact hlegal q hq hqueue
  · intro k
    rw [statusAt_set hi hthreads, hhistory]
    split_ifs with hk
    · subst hk
      -- The thread whose entry it is.
      have hold := h.calls k
      rw [statusAt_eq hi] at hold
      exact hcall hold
    · exact (h.calls k).other (by rw [hx]; exact Ne.symm hk)

/-- An entry that is no effect leaves the effects as they were. -/
theorem legal_of_no_effect {x : QueueEntry α} (hx : effects [x] = []) {q : SafeQueue α}
    (hq : SafeQueue.Legal s.capacity (effects s.history) q) (hqueue : q.queue = s.queue) :
    ∃ q', SafeQueue.Legal s.capacity (effects (s.history ++ [x])) q' ∧ q'.queue = s.queue := by
  refine ⟨q, ?_, hqueue⟩
  have happend : effects (s.history ++ [x]) = effects s.history ++ effects [x] := by
    simp [effects]
  rwa [happend, hx, List.append_nil]

/-- An effect comes at the end of the effects. -/
theorem effects_concat (history : List (QueueEntry α)) (i : ℕ) (e : QueueEffect α) :
    effects (history ++ [.effect i e]) = effects history ++ [e] := by
  simp [effects]

/-- Every step keeps the history linearized. -/
theorem Linearized.move (h : s.Linearized) (hinf : s.Informed) (hmove : Moves s t) :
    t.Linearized := by
  cases hmove with
  | call i op hi =>
    exact h.record (x := .invoke i op) hi rfl rfl rfl (fun hc => .invoke hc)
      fun q hq hqueue => legal_of_no_effect rfl hq hqueue
  | lock i op hfree hi => exact h.goTo hi rfl rfl rfl rfl rfl
  | relock i op timedOut hfree hi htimed => exact h.goTo hi rfl rfl rfl rfl rfl
  | ready i op woken timedOut hi hready => exact h.goTo hi rfl rfl rfl rfl rfl
  | expire i op woken hi hready =>
    obtain rfl : op = .tryPopFor := hinf i _ hi rfl
    have hempty : s.queue = [] := by simpa [QueueMonitor.ready, QueueOp.cv] using hready
    refine h.record (x := .effect i .timedOut) hi rfl rfl rfl (fun hc => .effect hc .timedOut)
      fun q hq hqueue => ⟨q, ?_, hqueue⟩
    rw [effects_concat]
    exact hq.timedOut (SafeQueue.tryPop_eq_none.mpr (hqueue.trans hempty))
  | park i op woken hi hready => exact h.goTo hi rfl rfl rfl rfl rfl
  | wait i op hi => exact h.goTo hi rfl rfl rfl rfl rfl
  | wake i op hi => exact h.goTo hi rfl rfl rfl rfl rfl
  | push i x woken hi =>
    have hroom : s.ready .notFull = true := hinf i _ hi
    have hroom : s.queue.length < s.capacity := by simpa [QueueMonitor.ready] using hroom
    refine h.record (x := .effect i (.pushed x)) hi rfl rfl rfl (fun hc => .effect hc (.push x))
      fun q hq hqueue => ?_
    -- The queue as its callers see it has room, for it holds the same items.
    have hpush : q.push x ≠ none := by
      rw [ne_eq, SafeQueue.push_eq_none, hqueue, hq.capacity_eq]
      omega
    obtain ⟨q', hq'⟩ := Option.ne_none_iff_exists'.mp hpush
    refine ⟨q', ?_, by rw [(SafeQueue.push_eq_some hq').1, hqueue]; rfl⟩
    rw [effects_concat]
    exact hq.push hq'
  | pop i op woken x queue hi hop hqueue =>
    -- `pop` and `try_pop_for` take the same way here.
    have hpermits : op.Permits (.popped x) := by
      cases op with
      | push y => cases hop
      | pop => exact .pop x
      | tryPopFor => exact .tryPopFor x
    refine h.record (x := .effect i (.popped x)) hi rfl rfl rfl (fun hc => .effect hc hpermits)
      fun q hq hold => ?_
    -- It has an item, and the oldest is the same.
    have hpop : q.tryPop ≠ none := by
      rw [ne_eq, SafeQueue.tryPop_eq_none, hold, hqueue]
      simp
    obtain ⟨⟨y, q'⟩, hq'⟩ := Option.ne_none_iff_exists'.mp hpop
    obtain ⟨rfl, hrest⟩ : x = y ∧ queue = q'.queue := by
      have hhead := (SafeQueue.tryPop_eq_some hq').1
      rwa [hold, hqueue, List.cons.injEq] at hhead
    refine ⟨q', ?_, hrest.symm⟩
    rw [effects_concat]
    exact hq.pop hq'
  | giveUp i hi =>
    exact h.record (x := .respond i .timedOut) hi rfl rfl rfl (fun hc => .respond hc)
      fun q hq hqueue => legal_of_no_effect rfl hq hqueue
  | unlock i e cv hi hcv => exact h.goTo hi rfl rfl rfl rfl rfl
  | notifyNone i e hi hnone =>
    exact h.record (x := .respond i e) hi rfl rfl rfl (fun hc => .respond hc)
      fun q hq hqueue => legal_of_no_effect rfl hq hqueue
  | notifyOne i e j op hi hj hcv =>
    have hi' := getElem?_goTo_notified hi hj
    have hwoken : (s.goTo j (.unblocked op)).Linearized := h.goTo hj rfl rfl rfl rfl rfl
    exact hwoken.record (x := .respond i e) hi' rfl rfl rfl (fun hc => .respond hc)
      fun q hq hqueue => legal_of_no_effect rfl hq hqueue

/-! ## Runs -/

/-- What every reachable state satisfies. -/
structure Invariant (s : QueueMonitor α) : Prop where
  /-- One thread at a time holds the mutex. -/
  exclusive : s.Exclusive
  /-- What the threads know is true. -/
  informed : s.Informed
  /-- What is available is matched. -/
  matched : ∀ cv, s.Matched cv
  /-- The history is linearized. -/
  linearized : s.Linearized

/-- Every step keeps it. -/
theorem Invariant.step (hs : s.Invariant) (h : s.step a = some t) : t.Invariant := by
  have hmove := moves_of_step h
  exact ⟨hs.exclusive.move hmove, hs.informed.move hs.exclusive hmove,
    fun cv => (hs.matched cv).move hs.informed hmove, hs.linearized.move hs.informed hmove⟩

/-- It holds before the first call. -/
theorem invariant_init (capacity n : ℕ) : (init capacity n : QueueMonitor α).Invariant := by
  have hidle : ∀ (i : ℕ) (p : CallPhase α),
      (init capacity n : QueueMonitor α).threads[i]? = some p → p = .idle := by
    intro i p hi
    exact List.eq_of_mem_replicate (List.mem_of_getElem? hi)
  refine ⟨fun i p hi => ?_, fun i p hi => ?_, fun cv => .inl ?_, ⟨⟨_, .nil, rfl⟩, fun i => ?_⟩⟩
  · obtain rfl := hidle i p hi
    simp [CallPhase.holds, init]
  · obtain rfl := hidle i p hi
    trivial
  · simp [init, List.countP_replicate, CallPhase.waitsOn]
  · have hstatus : (init capacity n : QueueMonitor α).statusAt i = .returned := by
      unfold statusAt
      cases hi : (init capacity n : QueueMonitor α).threads[i]? with
      | none => rfl
      | some p =>
        obtain rfl := hidle i p hi
        rfl
    rw [hstatus]
    exact .nil

/-- The capacity stays. -/
theorem capacity_move (hmove : Moves s t) : t.capacity = s.capacity := by
  cases hmove <;> rfl

/-- A thread that waits although it could go on is not the only one on its condition variable: one
was woken, or is to notify. -/
theorem Invariant.woken_or_owed (hs : s.Invariant) {op : QueueOp α}
    (hi : s.threads[i]? = some (.waiting op)) (hready : s.ready op.cv = true) :
    ∃ (k : ℕ) (p : CallPhase α), s.threads[k]? = some p ∧
      (p.wokenFor op.cv = true ∨ p.owes op.cv = true) := by
  have hwaits : 0 < s.threads.countP (CallPhase.waitsOn op.cv) :=
    List.countP_pos_iff.mpr ⟨_, List.mem_of_getElem? hi, by simp [CallPhase.waitsOn]⟩
  have havailable := (ready_iff s op.cv).mp hready
  -- The waiting thread rules out the first case of `Matched`.
  have hsum : 0 < s.threads.countP (CallPhase.wokenFor op.cv) +
      s.threads.countP (CallPhase.owes op.cv) := by
    rcases hs.matched op.cv with hzero | hmatched <;> omega
  rcases Nat.add_pos_iff_pos_or_pos.mp hsum with hpos | hpos
  · obtain ⟨p, hp, hwoken⟩ := List.countP_pos_iff.mp hpos
    obtain ⟨k, hk⟩ := List.mem_iff_getElem?.mp hp
    exact ⟨k, p, hk, .inl hwoken⟩
  · obtain ⟨p, hp, howes⟩ := List.countP_pos_iff.mp hpos
    obtain ⟨k, hk⟩ := List.mem_iff_getElem?.mp hp
    exact ⟨k, p, hk, .inr howes⟩

/-- For every capacity, every number of threads, and every interleaving of their steps with wake-ups
of all kinds: the queue never holds more than its capacity; the calls are linearizable, and what was
popped comes first in what was pushed; `nullopt` is returned while the queue is empty; nothing is
popped from an empty queue; and a thread does not wait for what is there, unless one that was woken
or one that is to notify is still on its way. -/
theorem linearizable_no_lost_wakeup {capacity n : ℕ} {as : List (QueueAction α)}
    (h : exec step (init capacity n) as = some s) :
    s.queue.length ≤ capacity ∧ s.Linearized ∧
      pushes (effects s.history) = pops (effects s.history) ++ s.queue ∧
      pops (effects s.history) <+: pushes (effects s.history) ∧
      (∀ i : ℕ, s.threads[i]? = some (.unlock .timedOut) → s.queue = []) ∧
      (∀ (i : ℕ) op woken, s.threads[i]? = some (.act op woken) → s.ready op.cv = true) ∧
      ∀ (i : ℕ) op, s.threads[i]? = some (.waiting op) → s.ready op.cv = true →
        ∃ (k : ℕ) (p : CallPhase α), s.threads[k]? = some p ∧
          (p.wokenFor op.cv = true ∨ p.owes op.cv = true) := by
  obtain ⟨hs, hcapacity⟩ : s.Invariant ∧ s.capacity = capacity := by
    refine (run_of_exec h).invariant (I := fun s => s.Invariant ∧ s.capacity = capacity)
      (fun s a t hs _ hstep => ⟨hs.1.step hstep, ?_⟩) ⟨invariant_init capacity n, rfl⟩
    exact (capacity_move (moves_of_step hstep)).trans hs.2
  obtain ⟨q, hq, hqueue⟩ := hs.linearized.legal
  have hpushes : pushes (effects s.history) = pops (effects s.history) ++ s.queue := by
    rw [hq.pushes_eq, hqueue]
  refine ⟨?_, hs.linearized, hpushes, ⟨s.queue, hpushes.symm⟩, fun i hi => hs.informed i _ hi,
    fun i op woken hi => hs.informed i _ hi, fun i op hi => hs.woken_or_owed hi⟩
  calc s.queue.length = q.queue.length := by rw [hqueue]
    _ ≤ q.capacity := q.bounded
    _ = capacity := hq.capacity_eq.trans hcapacity

/-- A thread waits for an item, and another has pushed one and is about to notify. -/
def pushBeforeNotify : List (QueueAction ℕ) :=
  [.call 0 .pop, .lock 0 false, .check 0, .call 1 (.push 7), .wait 0, .lock 1 false, .check 1,
    .change 1, .unlock 1]

/-- The thread waits although there is an item, and the notification is on its way. -/
theorem linearizable_no_lost_wakeup_pushBeforeNotify :
    ∃ s, exec step (init 1 2) pushBeforeNotify = some s ∧
      s.threads = [.waiting .pop, .notify (.pushed 7)] ∧ s.queue = [7] ∧
      ∃ (k : ℕ) (p : CallPhase ℕ), s.threads[k]? = some p ∧
        (p.wokenFor .notEmpty = true ∨ p.owes .notEmpty = true) := by
  have hend : (exec step (init 1 2) pushBeforeNotify).any (fun s =>
      s.threads = [.waiting .pop, .notify (.pushed 7)] ∧ s.queue = [7]) := by decide
  obtain ⟨s, hs, hend⟩ := (Option.any_eq_true _ _).mp hend
  obtain ⟨hthreads, hqueue⟩ := of_decide_eq_true hend
  obtain ⟨-, -, -, -, -, -, hwaits⟩ := linearizable_no_lost_wakeup hs
  have hready : s.ready .notEmpty = true := by simp [ready, hqueue]
  exact ⟨s, hs, hthreads, hqueue, hwaits 0 .pop (by simp [hthreads]) hready⟩

end QueueMonitor

end EventQueue.Broker
