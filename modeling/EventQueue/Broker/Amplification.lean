import EventQueue.Broker.RetryBudget
import Mathlib.Data.List.Perm.Subperm

/-!
# How far retries multiply a message

A delivery that fails puts one copy back on the main queue, and `route` sends that copy to every
matching subscription again, not only to the one that failed. So the copies of a message branch: a
copy with `r` failures behind it has at most as many deliveries as it has targets, each of which can
fail and make one copy with `r + 1`. Over all its retries a message that has `k` targets is
dispatched `k + k² + … + k ^ (max_retries + 1)` times at most, and dead-lettered
`k ^ (max_retries + 1)` times at most. In `amplification_two_consumers` the first bound is reached.

The proof counts generation by generation. `Ledger` has what was pushed and what was fanned out of
it; what is missing there is that every delivery that failed was dispatched before, one failure for
one dispatch (`Accounted`).
-/

namespace EventQueue.Broker

open TopicRouter (Target)
open Transition (Run exec run_of_exec)

namespace Event

/-- The delivery that was dispatched: the message and the client. -/
def dispatchedDelivery : Event → Option (Message × ClientId)
  | .dispatched m t => some (m, t.client_id)
  | _ => none

/-- The delivery that failed: the message and the client. -/
def failedDelivery : Event → Option (Message × ClientId)
  | .failed key entry => some (entry.msg, key.2)
  | _ => none

/-- A copy of the class came on the main queue, and not from a failure. -/
def enters (copies : Message → Bool) : Event → Bool
  | .enqueued m | .republished m => copies m
  | _ => false

/-- A copy of the class was dispatched to a client. -/
def sends (copies : Message → Bool) : Event → Bool
  | .dispatched m _ => copies m
  | _ => false

/-- A copy of the class was dead-lettered: without the prefix of its topic, the letter is one. -/
def lays (copies : Message → Bool) : Event → Bool
  | .deadLettered m => copies { m with topic := m.topic.drop dlqPrefix.length }
  | _ => false

/-- A copy is routed to so many targets at most. -/
def fansOutWithin (k : ℕ) : Event → Bool
  | .routed _ ts => ts.length ≤ k
  | _ => true

end Event

namespace Flow

variable {e : Env} {f g : Flow} {max_retries : ℤ}

/-! ## What fails was dispatched -/

/-- Whether a message is in flight to a client, as a number. -/
def inFlightTo (f : Flow) (d : Message × ClientId) : ℕ :=
  if (f.inFlight (d.1.msg_id, d.2)).map InFlight.msg = some d.1 then 1 else 0

/-- The deliveries that failed, and the one that is in flight, were all dispatched. -/
def Accounted (f : Flow) : Prop :=
  ∀ d, (f.trace.filterMap Event.failedDelivery).count d + f.inFlightTo d ≤
    (f.trace.filterMap Event.dispatchedDelivery).count d

/-- The invariant. -/
structure Spread (max_retries : ℤ) (f : Flow) : Prop where
  /-- Deliveries are filed under their message and client. -/
  filed : f.Filed
  /-- The ledger is balanced. -/
  ledger : f.Ledger max_retries
  /-- Every copy's count is within the budget. -/
  range : f.Forall fun m => 0 ≤ m.retry_count ∧ m.retry_count ≤ max_retries
  /-- A message is enqueued without a failure behind it. -/
  enqueued : ∀ m, .enqueued m ∈ f.trace → m.retry_count = 0
  /-- The count of every copy that was dispatched is within the budget. -/
  dispatched : ∀ m t, .dispatched m t ∈ f.trace →
    0 ≤ m.retry_count ∧ m.retry_count ≤ max_retries
  /-- A failed delivery has its message's count. -/
  failed : ∀ key entry, .failed key entry ∈ f.trace → entry.retry_count = entry.msg.retry_count
  /-- What fails was dispatched. -/
  accounted : f.Accounted

/-- The delivery that fails is in flight no more. -/
theorem Accounted.fail (h : f.Accounted) (hfiled : f.Filed) {key : DeliveryKey} {entry : InFlight}
    (hentry : f.inFlight key = some entry) (x : Event) (hx : x.failedDelivery = none)
    (hx' : x.dispatchedDelivery = none) (queue dlq : List Message) :
    Accounted { f with
      queue, dlq
      inFlight := Function.update f.inFlight key none
      trace := f.trace ++ [.failed key entry, x] } := by
  intro d
  obtain ⟨m, id⟩ := d
  have hbefore := h (m, id)
  have hkey := (hfiled key entry hentry).1
  have hdispatched : [Event.failed key entry, x].filterMap Event.dispatchedDelivery = [] := by
    rw [List.filterMap_cons_none rfl, List.filterMap_cons_none hx', List.filterMap_nil]
  have hfailed :
      [Event.failed key entry, x].filterMap Event.failedDelivery = [(entry.msg, key.2)] := by
    have hfirst : (Event.failed key entry).failedDelivery = some (entry.msg, key.2) := rfl
    rw [List.filterMap_cons_some hfirst, List.filterMap_cons_none hx, List.filterMap_nil]
  rw [List.filterMap_append, List.filterMap_append, hdispatched, hfailed, List.append_nil,
    List.count_append, List.count_singleton]
  by_cases hsame : (entry.msg, key.2) = (m, id)
  · -- It was the one that the account had in flight.
    obtain ⟨rfl, rfl⟩ := Prod.mk.inj hsame
    have hid : (entry.msg.msg_id, key.2) = key := by rw [hkey]
    have hone : f.inFlightTo (entry.msg, key.2) = 1 := by
      simp [inFlightTo, hid, hentry]
    rw [hone] at hbefore
    simpa [inFlightTo, hid] using hbefore
  · have hle : inFlightTo { f with
        queue, dlq
        inFlight := Function.update f.inFlight key none
        trace := f.trace ++ [.failed key entry, x] } (m, id) ≤ f.inFlightTo (m, id) := by
      unfold inFlightTo
      by_cases heq : (m.msg_id, id) = key
      · simp [heq]
      · simp [heq]
    simp only [beq_iff_eq, hsame, if_false, Nat.add_zero]
    exact (Nat.add_le_add_left hle _).trans hbefore

/-- A delivery that is dispatched is in flight, in the place of the one before. -/
theorem Accounted.track (h : f.Accounted) (m : Message) (t : Target) (hand : DispatcherPc)
    (deadline : TimePoint) (retry_count : ℤ) :
    Accounted { f with
      hand
      inFlight := Function.update f.inFlight (m.msg_id, t.client_id)
        (some ⟨m, t.client_id, deadline, retry_count⟩)
      trace := f.trace ++ [.dispatched m t] } := by
  rintro ⟨m', id⟩
  have hbefore := h (m', id)
  have hfailed : [Event.dispatched m t].filterMap Event.failedDelivery = [] := rfl
  have hdispatched :
      [Event.dispatched m t].filterMap Event.dispatchedDelivery = [(m, t.client_id)] :=
    rfl
  rw [List.filterMap_append, List.filterMap_append, hdispatched, hfailed, List.append_nil,
    List.count_append, List.count_singleton]
  by_cases hsame : (m, t.client_id) = (m', id)
  · obtain ⟨rfl, rfl⟩ := Prod.mk.inj hsame
    have hle : (f.trace.filterMap Event.failedDelivery).count (m, t.client_id) ≤
        (f.trace.filterMap Event.dispatchedDelivery).count (m, t.client_id) :=
      (Nat.le_add_right _ _).trans hbefore
    simpa [inFlightTo] using hle
  · have hle : inFlightTo { f with
        hand
        inFlight := Function.update f.inFlight (m.msg_id, t.client_id)
          (some ⟨m, t.client_id, deadline, retry_count⟩)
        trace := f.trace ++ [.dispatched m t] } (m', id) ≤ f.inFlightTo (m', id) := by
      unfold inFlightTo
      by_cases heq : (m'.msg_id, id) = (m.msg_id, t.client_id)
      · -- Another message under the same key has taken its place.
        have hne : m ≠ m' := fun hm => hsame (by rw [← (Prod.mk.inj heq).2, hm])
        simp [heq, hne]
      · simp [heq]
    simp only [beq_iff_eq, hsame, if_false, Nat.add_zero]
    exact (Nat.add_le_add_left hle _).trans hbefore

/-- Events that are neither a dispatch nor a failure, and fewer deliveries in flight, leave the
account in order. -/
theorem Accounted.mono (h : f.Accounted) (htrace : ∃ new, g.trace = f.trace ++ new ∧
      new.filterMap Event.failedDelivery = [] ∧ new.filterMap Event.dispatchedDelivery = [])
    (hinFlight : ∀ d, g.inFlightTo d ≤ f.inFlightTo d) : g.Accounted := by
  intro d
  obtain ⟨new, htrace, hfailed, hdispatched⟩ := htrace
  rw [htrace, List.filterMap_append, List.filterMap_append, hfailed, hdispatched, List.append_nil,
    List.append_nil]
  exact (Nat.add_le_add_left (hinFlight d) _).trans (h d)

/-- A move keeps the account. -/
theorem Accounted.move (h : f.Accounted) (hfiled : f.Filed) (hmove : Move e f g) :
    g.Accounted := by
  cases hmove with
  | stay | pop | sendGone | logPop => exact h.mono ⟨[], by simp, rfl, rfl⟩ fun _ => le_rfl
  | note x hx =>
    cases x with
    | published | audited | acked | heartbeat => exact h.mono ⟨_, rfl, rfl, rfl⟩ fun _ => le_rfl
    | _ => cases hx
  | enqueue | drop | route | sendWritten | republish =>
    exact h.mono ⟨_, rfl, rfl, rfl⟩ fun _ => le_rfl
  | ack key hkey =>
    refine h.mono ⟨[], by simp, rfl, rfl⟩ fun d => ?_
    unfold inFlightTo
    by_cases heq : (d.1.msg_id, d.2) = key
    · simp [heq]
    · simp [heq]
  | requeue key entry hkey hentry hretry => exact h.fail hfiled hentry _ rfl rfl _ _
  | deadLetter key entry hkey hentry hretry => exact h.fail hfiled hentry _ rfl rfl _ _
  | track m t todo deadline hhand => exact h.track m t _ deadline _

/-- A move keeps the invariant, when new messages have no failure behind them. -/
theorem Spread.move (h : f.Spread e.max_retries) (hmax : 0 ≤ e.max_retries)
    (hoffers : ∀ m, e.offers m → m.retry_count = 0) (hmove : Move e f g) :
    g.Spread e.max_retries where
  filed := h.filed.move hmove
  ledger := h.ledger.move hmove
  range := by
    refine h.range.move h.filed hmove (fun m hm _ => ?_) (fun m hm hretry => ?_) fun m hm _ => ?_
    · rw [hoffers m hm]
      exact ⟨le_rfl, hmax⟩
    · exact ⟨by simp only; omega, by simp only; omega⟩
    · exact ⟨le_rfl, hmax⟩
  enqueued m hm := by
    rcases hmove.enqueued_cases hm with hold | hnew
    · exact h.enqueued m hold
    · exact hoffers m hnew
  dispatched m t hm := by
    cases hmove with
    | track m' t' todo deadline hhand =>
      rcases List.mem_append.mp hm with hm | hm
      · exact h.dispatched m t hm
      · obtain ⟨rfl, rfl⟩ : m = m' ∧ t = t' := by simpa using hm
        exact h.range.hand m (by simp [hhand])
    | note x hx => exact h.dispatched m t (mem_of_note hx rfl hm)
    | enqueue | requeue | deadLetter | drop | route | sendWritten | republish =>
      exact h.dispatched m t (by simpa using hm)
    | _ => exact h.dispatched m t hm
  failed key entry hm := by
    cases hmove with
    | requeue key' entry' hkey hentry hretry | deadLetter key' entry' hkey hentry hretry =>
      have hm : .failed key entry ∈ f.trace ∨ key = key' ∧ entry = entry' := by simpa using hm
      rcases hm with hm | ⟨rfl, rfl⟩
      · exact h.failed key entry hm
      · exact (h.filed key entry hentry).2
    | note x hx => exact h.failed key entry (mem_of_note hx rfl hm)
    | enqueue | track | drop | route | sendWritten | republish =>
      exact h.failed key entry (by simpa using hm)
    | _ => exact h.failed key entry hm
  accounted := h.accounted.move h.filed hmove

/-! ## The generations of a message's copies -/

/-- A copy of the class with so many failures behind it. -/
def atLevel (copies : Message → Bool) (r : ℕ) (m : Message) : Bool :=
  copies m && m.retry_count = (r : ℤ)

/-- How many copies of a level were pushed on the main queue. -/
def pushedAt (copies : Message → Bool) (f : Flow) (r : ℕ) : ℕ :=
  (f.trace.filterMap Event.pushedMsg).countP (atLevel copies r)

/-- How often copies of a level were dispatched. -/
def dispatchedAt (copies : Message → Bool) (f : Flow) (r : ℕ) : ℕ :=
  (f.trace.filterMap Event.dispatchedDelivery).countP fun d => atLevel copies r d.1

/-- How many deliveries of copies of a level failed. -/
def failedAt (copies : Message → Bool) (f : Flow) (r : ℕ) : ℕ :=
  (f.trace.filterMap Event.failedDelivery).countP fun d => atLevel copies r d.1

variable {copies : Message → Bool} {k r : ℕ}

/-- The pushes are those of the three kinds. -/
theorem countP_pushed (trace : List Event) (p : Message → Bool) :
    (trace.filterMap Event.pushedMsg).countP p = (trace.filterMap Event.enqueuedMsg).countP p +
      (trace.filterMap Event.requeuedMsg).countP p +
      (trace.filterMap Event.republishedMsg).countP p := by
  induction trace with
  | nil => simp
  | cons x trace ih =>
    cases x with
    | enqueued m | requeued m | republished m =>
      simp only [filterMap_event, Event.pushedMsg, Event.enqueuedMsg, Event.requeuedMsg,
        Event.republishedMsg, Option.toList_some, Option.toList_none, List.nil_append,
        List.countP_append, ih]
      omega
    | _ => exact ih

/-- What entered the queue, and not from a failure, is of two kinds. -/
theorem countP_enters (trace : List Event) :
    trace.countP (Event.enters copies) = (trace.filterMap Event.enqueuedMsg).countP copies +
      (trace.filterMap Event.republishedMsg).countP copies := by
  induction trace with
  | nil => simp
  | cons x trace ih =>
    cases x with
    | enqueued m | republished m =>
      simp only [filterMap_event, Event.enqueuedMsg, Event.republishedMsg, Option.toList_some,
        Option.toList_none, List.nil_append, List.countP_append, List.countP_cons, List.countP_nil,
        Event.enters, ih]
      ac_rfl
    | _ => exact ih

/-- A message that is routed to `k` targets at most fans out to `k` deliveries at most. -/
theorem countP_fannedOut_le {p : Message → Bool} {trace : List Event}
    (h : ∀ m ts, .routed m ts ∈ trace → p m = true → ts.length ≤ k) :
    (trace.flatMap Event.fannedOut).countP (fun x => p x.1) ≤
      k * (trace.filterMap Event.takenMsg).countP p := by
  induction trace with
  | nil => simp
  | cons x trace ih =>
    have ih := ih fun m ts hm => h m ts (List.mem_cons_of_mem _ hm)
    cases x with
    | routed m ts =>
      have hfirst : (ts.map (m, ·)).countP (fun x => p x.1) ≤ k * if p m then 1 else 0 := by
        rw [List.countP_map]
        by_cases hm : p m = true
        · rw [if_pos hm, Nat.mul_one]
          exact List.countP_le_length.trans (h m ts List.mem_cons_self hm)
        · have hnone : ts.countP ((fun x => p x.1) ∘ (m, ·)) = 0 :=
            List.countP_eq_zero.mpr fun t _ => hm
          rw [hnone]
          exact Nat.zero_le _
      simp only [List.flatMap_cons, Event.fannedOut, List.countP_append, filterMap_event,
        Event.takenMsg, Option.toList_some, List.countP_singleton, Nat.mul_add]
      exact Nat.add_le_add hfirst ih
    | dropped m =>
      refine ih.trans (Nat.mul_le_mul_left k ?_)
      simp only [filterMap_event, Event.takenMsg, Option.toList_some, List.countP_append]
      exact Nat.le_add_left _ _
    | _ => exact ih

/-- A copy that is pushed is dispatched to its targets at most. -/
theorem Ledger.dispatchedAt_le (h : f.Ledger max_retries)
    (hk : ∀ m ts, .routed m ts ∈ f.trace → copies m = true → ts.length ≤ k) (r : ℕ) :
    f.dispatchedAt copies r ≤ k * f.pushedAt copies r := by
  have hdelivery : f.trace.filterMap Event.dispatchedDelivery =
      (f.trace.filterMap Event.dispatchedTo).map fun x => (x.1, x.2.client_id) := by
    rw [List.map_filterMap]
    refine List.filterMap_congr fun x _ => ?_
    cases x <;> rfl
  have hrouted : ∀ m ts, .routed m ts ∈ f.trace → atLevel copies r m = true → ts.length ≤ k :=
    fun m ts hm hlevel => hk m ts hm (Bool.and_eq_true_iff.mp hlevel).1
  have hfanned := countP_fannedOut_le hrouted
  -- What was dispatched is part of what was fanned out, and what was routed of what was pushed.
  rw [h.fannedOut, List.countP_append] at hfanned
  have htaken : (f.trace.filterMap Event.takenMsg).countP (atLevel copies r) ≤
      f.pushedAt copies r := by
    rw [pushedAt, h.pushed, List.countP_append]
    exact Nat.le_add_right _ _
  rw [dispatchedAt, hdelivery, List.countP_map]
  exact ((Nat.le_add_right _ _).trans hfanned).trans (Nat.mul_le_mul_left k htaken)

/-- A delivery that failed was dispatched. -/
theorem Accounted.subperm (h : f.Accounted) :
    (f.trace.filterMap Event.failedDelivery).Subperm
      (f.trace.filterMap Event.dispatchedDelivery) :=
  List.subperm_ext_iff.mpr fun d _ => (Nat.le_add_right _ _).trans (h d)

/-- The failed deliveries, by their messages. -/
theorem countP_failedDelivery (trace : List Event) (p : Message → Bool) :
    (trace.filterMap Event.failedDelivery).countP (fun d => p d.1) =
      (trace.filterMap Event.failedEntry).countP fun entry => p entry.msg := by
  rw [List.countP_filterMap, List.countP_filterMap]
  refine List.countP_congr fun x _ => ?_
  cases x <;> rfl

/-- What is known of a delivery that failed. -/
theorem Spread.failed_range (h : f.Spread max_retries) {entry : InFlight}
    (hentry : entry ∈ f.trace.filterMap Event.failedEntry) :
    entry.retry_count = entry.msg.retry_count ∧ 0 ≤ entry.msg.retry_count ∧
      entry.msg.retry_count ≤ max_retries := by
  obtain ⟨x, hx, hfailed⟩ := List.mem_filterMap.mp hentry
  cases x with
  | failed key entry' =>
    obtain rfl := Option.some.inj hfailed
    refine ⟨h.failed key entry' hx, ?_⟩
    -- It was dispatched, with the count that it has.
    have hmem : (entry'.msg, key.2) ∈ f.trace.filterMap Event.failedDelivery :=
      List.mem_filterMap.mpr ⟨_, hx, rfl⟩
    obtain ⟨y, hy, hdispatched⟩ := List.mem_filterMap.mp (h.accounted.subperm.subset hmem)
    cases y with
    | dispatched m t =>
      obtain ⟨rfl, -⟩ := Prod.mk.inj (Option.some.inj hdispatched)
      exact h.dispatched _ t hy
    | _ => cases hdispatched
  | _ => cases hfailed

/-- What went back on the queue has a failure behind it. -/
theorem Spread.requeued_pos (h : f.Spread max_retries) {m : Message}
    (hm : m ∈ f.trace.filterMap Event.requeuedMsg) : 0 < m.retry_count := by
  rw [h.ledger.requeued] at hm
  obtain ⟨entry, hentry, hrequeue⟩ := List.mem_filterMap.mp hm
  obtain ⟨hcount, hnonneg, -⟩ := h.failed_range hentry
  by_cases hretry : entry.retry_count < max_retries
  · obtain rfl : entry.requeueMsg = m := by simpa [requeueOf_of_lt hretry] using hrequeue
    show 0 < entry.retry_count + 1
    omega
  · simp [requeueOf_of_le (not_lt.mp hretry)] at hrequeue

/-- A dead letter has no failure behind it. -/
theorem Spread.republished_zero (h : f.Spread max_retries) {m : Message}
    (hm : m ∈ f.trace.filterMap Event.republishedMsg) : m.retry_count = 0 := by
  have hm : m ∈ f.trace.filterMap Event.deadLetteredMsg := by
    rw [h.ledger.republished]
    exact List.mem_append_left _ hm
  rw [h.ledger.deadLettered] at hm
  obtain ⟨entry, -, hletter⟩ := List.mem_filterMap.mp hm
  by_cases hretry : entry.retry_count < max_retries
  · simp [deadLetterOf_of_lt hretry] at hletter
  · obtain rfl : entry.dlqMsg = m := by
      simpa [deadLetterOf_of_le (not_lt.mp hretry)] using hletter
    rfl

/-- The copies without a failure entered the queue, and not from one. -/
theorem Spread.pushedAt_zero_le (h : f.Spread max_retries) :
    f.pushedAt copies 0 ≤ f.trace.countP (Event.enters copies) := by
  have hrequeued : (f.trace.filterMap Event.requeuedMsg).countP (atLevel copies 0) = 0 := by
    refine List.countP_eq_zero.mpr fun m hm hlevel => ?_
    have hzero := of_decide_eq_true (Bool.and_eq_true_iff.mp hlevel).2
    have hpos := h.requeued_pos hm
    omega
  have hle : ∀ l : List Message, l.countP (atLevel copies 0) ≤ l.countP copies := fun l =>
    List.countP_mono_left fun m _ hm => (Bool.and_eq_true_iff.mp hm).1
  rw [pushedAt, countP_pushed, hrequeued, countP_enters, Nat.add_zero]
  exact Nat.add_le_add (hle _) (hle _)

/-- The copies of the next level come from failures of this one. -/
theorem Spread.pushedAt_succ_le (h : f.Spread max_retries)
    (hcopies : ∀ m n, copies { m with retry_count := n } = copies m) (r : ℕ) :
    f.pushedAt copies (r + 1) ≤ f.failedAt copies r := by
  have hlevel : ∀ m : Message, m.retry_count = 0 → ¬atLevel copies (r + 1) m = true := by
    intro m hm hlevel
    have hsucc := of_decide_eq_true (Bool.and_eq_true_iff.mp hlevel).2
    omega
  have henqueued : (f.trace.filterMap Event.enqueuedMsg).countP (atLevel copies (r + 1)) = 0 := by
    refine List.countP_eq_zero.mpr fun m hm => hlevel m ?_
    obtain ⟨x, hx, hxm⟩ := List.mem_filterMap.mp hm
    exact h.enqueued m (Event.eq_enqueued hxm ▸ hx)
  have hrepublished :
      (f.trace.filterMap Event.republishedMsg).countP (atLevel copies (r + 1)) = 0 :=
    List.countP_eq_zero.mpr fun m hm => hlevel m (h.republished_zero hm)
  rw [pushedAt, countP_pushed, henqueued, hrepublished, failedAt, countP_failedDelivery,
    h.ledger.requeued, List.countP_filterMap]
  simp only [Nat.zero_add, Nat.add_zero]
  refine List.countP_mono_left fun entry hentry hrequeue => ?_
  obtain ⟨hcount, -, -⟩ := h.failed_range hentry
  by_cases hretry : entry.retry_count < max_retries
  · -- The copy is the delivered one, with one failure more.
    have hcopy : copies entry.requeueMsg = copies entry.msg := hcopies _ _
    have hnext : entry.requeueMsg.retry_count = entry.retry_count + 1 := rfl
    simp only [requeueOf_of_lt hretry, Option.map_some, Option.getD_some, atLevel, hcopy, hnext,
      Bool.and_eq_true, decide_eq_true_eq] at hrequeue ⊢
    exact ⟨hrequeue.1, by omega⟩
  · simp [requeueOf_of_le (not_lt.mp hretry)] at hrequeue

/-- What is dead-lettered has failed at the last level. -/
theorem Spread.lays_le (h : f.Spread max_retries)
    (hcopies : ∀ m n, copies { m with retry_count := n } = copies m) :
    f.trace.countP (Event.lays copies) ≤ f.failedAt copies max_retries.toNat := by
  have hlays : f.trace.countP (Event.lays copies) =
      (f.trace.filterMap Event.deadLetteredMsg).countP fun m =>
        copies { m with topic := m.topic.drop dlqPrefix.length } := by
    rw [List.countP_filterMap]
    refine List.countP_congr fun x _ => ?_
    cases x <;> rfl
  rw [hlays, failedAt, countP_failedDelivery, h.ledger.deadLettered, List.countP_filterMap]
  refine List.countP_mono_left fun entry hentry hletter => ?_
  obtain ⟨hcount, hnonneg, hle⟩ := h.failed_range hentry
  by_cases hretry : entry.retry_count < max_retries
  · simp [deadLetterOf_of_lt hretry] at hletter
  · -- Without its prefix and its count, the letter is the message that was delivered.
    have hcopy : copies { entry.dlqMsg with
        topic := entry.dlqMsg.topic.drop dlqPrefix.length } = copies entry.msg := by
      have htopic : entry.dlqMsg.topic.drop dlqPrefix.length = entry.msg.topic :=
        List.drop_left
      rw [htopic]
      exact hcopies entry.msg 0
    simp only [deadLetterOf_of_le (not_lt.mp hretry), Option.map_some, Option.getD_some,
      hcopy] at hletter
    simp only [atLevel, hletter, Bool.true_and, decide_eq_true_eq]
    omega

/-- The deliveries of a class are those of its levels. -/
theorem Spread.sends_eq (h : f.Spread max_retries) :
    f.trace.countP (Event.sends copies) =
      ∑ r ∈ Finset.range (max_retries.toNat + 1), f.dispatchedAt copies r := by
  have hsends : f.trace.countP (Event.sends copies) =
      (f.trace.filterMap Event.dispatchedDelivery).countP fun d => copies d.1 := by
    rw [List.countP_filterMap]
    refine List.countP_congr fun x _ => ?_
    cases x <;> rfl
  rw [hsends]
  refine Counting.countP_eq_sum_levels
    (g := fun d : Message × ClientId => d.1.retry_count) fun d hd _ => ?_
  obtain ⟨x, hx, hdispatched⟩ := List.mem_filterMap.mp hd
  cases x with
  | dispatched m t =>
    obtain rfl := Option.some.inj hdispatched
    have hrange := h.dispatched m t hx
    push_cast
    omega
  | _ => cases hdispatched

end Flow

/-! ## Runs of the broker -/

variable {cfg : Config} {s t : State} {as : List Action} {file : Bytes} {order : List Message}

/-- The invariant holds after a start. -/
theorem spread_of_start (hmax : 0 ≤ cfg.max_retries)
    (h : State.start cfg file order = some s) : s.flow.Spread cfg.max_retries := by
  have hretry : ∀ m ∈ State.replayed order, m.retry_count = 0 := fun m hm =>
    (logged_of_replayed h hm).2.2
  rw [flow_of_start h]
  generalize State.replayed order = ms at hretry
  refine ⟨by simp [Flow.Filed], Flow.ledger_start cfg.max_retries ms, ?_, ?_, by simp, by simp,
    fun d => ?_⟩
  · constructor <;> simp +contextual [hretry, hmax]
  · intro m hm
    exact hretry m (by simpa using hm)
  · rw [Flow.filterMap_enqueued fun _ => rfl]
    simp [Flow.inFlightTo]

/-- It holds in every run. -/
theorem spread_of_run (hmax : 0 ≤ cfg.max_retries) (hstart : State.start cfg file order = some s)
    (hexec : exec (State.step cfg) s as = some t) : t.flow.Spread cfg.max_retries := by
  -- The invariant of the copies goes with the messages that are not queued yet.
  have hinv : t.flow.Spread cfg.max_retries ∧ ∀ m, t.Staged m → m.retry_count = 0 := by
    refine (run_of_exec hexec).invariant (I := fun s => s.flow.Spread cfg.max_retries ∧
      ∀ m, s.Staged m → m.retry_count = 0) (fun s a t hs _ h => ⟨?_, ?_⟩) ⟨?_, ?_⟩
    · exact hs.1.move (e := s.env cfg a) hmax (fun m hm => hs.2 m (staged_of_offered hm))
        (step_move h)
    · exact staged_retry_count h hs.2
    · exact spread_of_start hmax hstart
    · exact fun m hm => absurd hm (not_staged_of_start hstart m)
  exact hinv.1

/-- In every run, on any log, and for every class of copies that does not look at the number of
failures (those of one message under one topic, say): if a copy of the class is routed to `fanOut`
targets at most, then the class is dispatched `fanOut + … + fanOut ^ (max_retries + 1)` times at
most, and dead-lettered `fanOut ^ (max_retries + 1)` times at most, for each time that one of its
copies was published, replayed, or republished. -/
theorem amplification_bounded (hmax : 0 ≤ cfg.max_retries)
    (hstart : State.start cfg file order = some s) (hexec : exec (State.step cfg) s as = some t)
    (copies : Message → Bool) (hcopies : ∀ m n, copies { m with retry_count := n } = copies m)
    (fanOut : ℕ) (hfan : ∀ m ts, .routed m ts ∈ t.trace → copies m = true → ts.length ≤ fanOut) :
    t.trace.countP (Event.sends copies) ≤ t.trace.countP (Event.enters copies) *
        ∑ r ∈ Finset.range (cfg.max_retries.toNat + 1), fanOut ^ (r + 1) ∧
      t.trace.countP (Event.lays copies) ≤
        t.trace.countP (Event.enters copies) * fanOut ^ (cfg.max_retries.toNat + 1) := by
  have h := spread_of_run hmax hstart hexec
  have hdispatched : ∀ r, t.flow.dispatchedAt copies r ≤ fanOut * t.flow.pushedAt copies r :=
    h.ledger.dispatchedAt_le hfan
  have hfailed : ∀ r, t.flow.failedAt copies r ≤ t.flow.dispatchedAt copies r := fun r =>
    h.accounted.subperm.countP_le _
  have hpushed := h.pushedAt_succ_le hcopies
  have hzero : t.flow.pushedAt copies 0 ≤ t.trace.countP (Event.enters copies) :=
    h.pushedAt_zero_le
  constructor
  · calc t.trace.countP (Event.sends copies)
        = ∑ r ∈ Finset.range (cfg.max_retries.toNat + 1), t.flow.dispatchedAt copies r := h.sends_eq
      _ ≤ t.flow.pushedAt copies 0 *
          ∑ r ∈ Finset.range (cfg.max_retries.toNat + 1), fanOut ^ (r + 1) :=
        Counting.sum_dispatched_le hdispatched hfailed hpushed _
      _ ≤ _ := Nat.mul_le_mul_right _ hzero
  · calc t.trace.countP (Event.lays copies)
        ≤ t.flow.failedAt copies cfg.max_retries.toNat := h.lays_le hcopies
      _ ≤ t.flow.dispatchedAt copies cfg.max_retries.toNat := hfailed _
      _ ≤ t.flow.pushedAt copies 0 * fanOut ^ (cfg.max_retries.toNat + 1) :=
        Counting.dispatched_le hdispatched hfailed hpushed _
      _ ≤ _ := Nat.mul_le_mul_right _ hzero

/-- Two subscribers refuse a message that has one retry: it is dispatched `2 + 2²` times. -/
theorem amplification_two_consumers :
    ∃ t, exec (State.step ⟨4, 1, 5000⟩) (State.init ⟨4, 1, 5000⟩)
        (deliveredToBoth ++ refuse 0 ++ refuse 2 ++ redeliverToBoth ++ redeliverToBoth) = some t ∧
      t.trace.countP (Event.enters fun m => m.origin = 0) = 1 ∧
      t.trace.countP (Event.sends fun m => m.origin = 0) = 6 ∧
      t.trace.countP (Event.sends fun m => m.origin = 0) ≤ 1 * (2 + 2 ^ 2) := by
  obtain ⟨t, ht, hend⟩ := (Option.any_eq_true _ _).mp
    (show (exec (State.step ⟨4, 1, 5000⟩) (State.init ⟨4, 1, 5000⟩)
      (deliveredToBoth ++ refuse 0 ++ refuse 2 ++ redeliverToBoth ++ redeliverToBoth)).any
      (fun t => t.trace.countP (Event.enters fun m => m.origin = 0) = 1 ∧
        t.trace.countP (Event.sends fun m => m.origin = 0) = 6 ∧
        t.trace.all (Event.fansOutWithin 2)) = true by decide)
  obtain ⟨henters, hsends, hfan⟩ := of_decide_eq_true hend
  have hbound := (amplification_bounded (by decide) (State.start_nil ⟨4, 1, 5000⟩) ht
    (fun m => m.origin = 0) (fun _ _ => rfl) 2 fun m ts hm _ =>
      of_decide_eq_true (List.all_eq_true.mp hfan _ hm)).1
  rw [henters] at hbound
  exact ⟨t, ht, henters, hsends, hbound⟩

end EventQueue.Broker
