import EventQueue.Broker.Flow

/-!
# The ledger of a run

The history of a run is a ledger of its queues. What was pushed on the main queue is what the
dispatcher has taken off, in the same order, then the message it has just popped, then the queue;
what `route` fanned out is what was dispatched, then the targets that are left; each failed delivery
was requeued or dead-lettered, as `requeue_or_dlq` decides; and what was dead-lettered is what was
republished, then the letter in the DLQ logger's hand, then the dead-letter queue. These are
equations between lists, so they carry order as well as number.
-/

namespace EventQueue.Broker

open TopicRouter (Target)

namespace Event

/-- The message that entered the main queue for the first time. -/
@[simp] def enqueuedMsg : Event → Option Message
  | .enqueued m => some m
  | _ => none

theorem eq_enqueued {x : Event} {m : Message} (h : x.enqueuedMsg = some m) : x = .enqueued m := by
  cases x with
  | enqueued m' => exact congrArg Event.enqueued (Option.some.inj h)
  | _ => cases h

/-- The message that went back on the main queue. -/
@[simp] def requeuedMsg : Event → Option Message
  | .requeued m => some m
  | _ => none

/-- The dead letter that went to the main queue. -/
@[simp] def republishedMsg : Event → Option Message
  | .republished m => some m
  | _ => none

/-- The message that was pushed on the main queue, for whatever reason. -/
@[simp] def pushedMsg : Event → Option Message
  | .enqueued m | .requeued m | .republished m => some m
  | _ => none

/-- The message that the dispatcher routed or dropped. -/
@[simp] def takenMsg : Event → Option Message
  | .routed m _ | .dropped m => some m
  | _ => none

/-- What `route` fanned out. -/
@[simp] def fannedOut : Event → List (Message × Target)
  | .routed m targets => targets.map (m, ·)
  | _ => []

/-- What was dispatched. -/
@[simp] def dispatchedTo : Event → Option (Message × Target)
  | .dispatched m t => some (m, t)
  | _ => none

/-- The delivery that failed. -/
@[simp] def failedEntry : Event → Option InFlight
  | .failed _ entry => some entry
  | _ => none

/-- The message that went to the dead-letter queue. -/
@[simp] def deadLetteredMsg : Event → Option Message
  | .deadLettered m => some m
  | _ => none

theorem eq_deadLettered {x : Event} {m : Message} (h : x.deadLetteredMsg = some m) :
    x = .deadLettered m := by
  cases x with
  | deadLettered m' => exact congrArg Event.deadLettered (Option.some.inj h)
  | _ => cases h

end Event

namespace DispatcherPc

/-- The message that the dispatcher has popped and not routed. -/
def waiting : DispatcherPc → Option Message
  | .popped m => some m
  | _ => none

/-- What the dispatcher has routed and not dispatched. -/
def undispatched : DispatcherPc → List (Message × Target)
  | .tracking m t todo => (t :: todo).map (m, ·)
  | .sending m _ todo => todo.map (m, ·)
  | _ => []

@[simp] theorem waiting_idle : waiting .idle = none := rfl

@[simp] theorem waiting_popped (m : Message) : (popped m).waiting = some m := rfl

@[simp] theorem waiting_tracking (m : Message) (t : Target) (todo : List Target) :
    (tracking m t todo).waiting = none := rfl

@[simp] theorem waiting_sending (m : Message) (t : Target) (todo : List Target) :
    (sending m t todo).waiting = none := rfl

@[simp] theorem undispatched_idle : undispatched .idle = [] := rfl

@[simp] theorem undispatched_popped (m : Message) : (popped m).undispatched = [] := rfl

@[simp] theorem undispatched_tracking (m : Message) (t : Target) (todo : List Target) :
    (tracking m t todo).undispatched = (m, t) :: todo.map (m, ·) := rfl

@[simp] theorem undispatched_sending (m : Message) (t : Target) (todo : List Target) :
    (sending m t todo).undispatched = todo.map (m, ·) := rfl

@[simp] theorem waiting_next (m : Message) (todo : List Target) : (next m todo).waiting = none := by
  cases todo <;> rfl

@[simp] theorem undispatched_next (m : Message) (todo : List Target) :
    (next m todo).undispatched = todo.map (m, ·) := by
  cases todo <;> rfl

end DispatcherPc

/-- The message that a failed delivery puts back on the main queue. -/
def requeueOf (max_retries : ℤ) (entry : InFlight) : Option Message :=
  match AckEngine.requeueOrDlq max_retries entry with
  | .requeue m => some m
  | .deadLetter _ => none

/-- The message that a failed delivery puts on the dead-letter queue. -/
def deadLetterOf (max_retries : ℤ) (entry : InFlight) : Option Message :=
  match AckEngine.requeueOrDlq max_retries entry with
  | .requeue _ => none
  | .deadLetter m => some m

namespace Flow

/-- The equations of the ledger. -/
structure Ledger (max_retries : ℤ) (f : Flow) : Prop where
  /-- The main queue is first in, first out. -/
  pushed : f.trace.filterMap Event.pushedMsg =
    f.trace.filterMap Event.takenMsg ++ (f.hand.waiting.toList ++ f.queue)
  /-- What is fanned out is dispatched in order. -/
  fannedOut : f.trace.flatMap Event.fannedOut =
    f.trace.filterMap Event.dispatchedTo ++ f.hand.undispatched
  /-- Failed deliveries with retries left are requeued. -/
  requeued : f.trace.filterMap Event.requeuedMsg =
    (f.trace.filterMap Event.failedEntry).filterMap (requeueOf max_retries)
  /-- Failed deliveries without are dead-lettered. -/
  deadLettered : f.trace.filterMap Event.deadLetteredMsg =
    (f.trace.filterMap Event.failedEntry).filterMap (deadLetterOf max_retries)
  /-- The dead-letter queue is first in, first out. -/
  republished : f.trace.filterMap Event.deadLetteredMsg =
    f.trace.filterMap Event.republishedMsg ++ (f.logger.toList ++ f.dlq)

variable {e : Env} {f g : Flow}

theorem requeueOf_of_lt {max_retries : ℤ} {entry : InFlight} (h : entry.retry_count < max_retries) :
    requeueOf max_retries entry = some entry.requeueMsg := by
  simp [requeueOf, AckEngine.requeueOrDlq, not_le.mpr h]

theorem deadLetterOf_of_lt {max_retries : ℤ} {entry : InFlight}
    (h : entry.retry_count < max_retries) : deadLetterOf max_retries entry = none := by
  simp [deadLetterOf, AckEngine.requeueOrDlq, not_le.mpr h]

theorem requeueOf_of_le {max_retries : ℤ} {entry : InFlight} (h : max_retries ≤ entry.retry_count) :
    requeueOf max_retries entry = none := by
  simp [requeueOf, AckEngine.requeueOrDlq, h]

theorem deadLetterOf_of_le {max_retries : ℤ} {entry : InFlight}
    (h : max_retries ≤ entry.retry_count) :
    deadLetterOf max_retries entry = some entry.dlqMsg := by
  simp [deadLetterOf, AckEngine.requeueOrDlq, h]

/-- One event of a history, read by one column of the ledger. -/
@[simp] theorem filterMap_event {β : Type*} (p : Event → Option β) (x : Event)
    (trace : List Event) : (x :: trace).filterMap p = (p x).toList ++ trace.filterMap p := by
  cases h : p x <;> simp [h]

/-- Events that a column of the ledger does not read. -/
theorem filterMap_append_unseen {β : Type*} {p : Event → Option β} {trace new : List Event}
    (h : new.filterMap p = []) : (trace ++ new).filterMap p = trace.filterMap p := by
  rw [List.filterMap_append, h, List.append_nil]

/-- Events that fan nothing out. -/
theorem flatMap_append_unseen {trace new : List Event} (h : new.flatMap Event.fannedOut = []) :
    (trace ++ new).flatMap Event.fannedOut = trace.flatMap Event.fannedOut := by
  rw [List.flatMap_append, h, List.append_nil]

/-- Events that are no delivery leave the equation of the fan-out as it is. -/
theorem Ledger.fannedOut_unseen {max_retries : ℤ} (h : f.Ledger max_retries) {new : List Event}
    (hfanned : new.flatMap Event.fannedOut = [])
    (hdispatched : new.filterMap Event.dispatchedTo = []) :
    (f.trace ++ new).flatMap Event.fannedOut =
      (f.trace ++ new).filterMap Event.dispatchedTo ++ f.hand.undispatched := by
  rw [flatMap_append_unseen hfanned, filterMap_append_unseen hdispatched, h.fannedOut]

/-- Events that are no failure leave the equation of the requeued deliveries as it is. -/
theorem Ledger.requeued_unseen {max_retries : ℤ} (h : f.Ledger max_retries) {new : List Event}
    (hrequeued : new.filterMap Event.requeuedMsg = [])
    (hfailed : new.filterMap Event.failedEntry = []) :
    (f.trace ++ new).filterMap Event.requeuedMsg =
      ((f.trace ++ new).filterMap Event.failedEntry).filterMap (requeueOf max_retries) := by
  rw [filterMap_append_unseen hrequeued, filterMap_append_unseen hfailed, h.requeued]

/-- Events that are no failure leave the equation of the dead letters as it is. -/
theorem Ledger.deadLettered_unseen {max_retries : ℤ} (h : f.Ledger max_retries) {new : List Event}
    (hdead : new.filterMap Event.deadLetteredMsg = [])
    (hfailed : new.filterMap Event.failedEntry = []) :
    (f.trace ++ new).filterMap Event.deadLetteredMsg =
      ((f.trace ++ new).filterMap Event.failedEntry).filterMap (deadLetterOf max_retries) := by
  rw [filterMap_append_unseen hdead, filterMap_append_unseen hfailed, h.deadLettered]

/-- Events that the DLQ logger has no part in leave the equation of its queue as it is. -/
theorem Ledger.republished_unseen {max_retries : ℤ} (h : f.Ledger max_retries) {new : List Event}
    (hdead : new.filterMap Event.deadLetteredMsg = [])
    (hrepublished : new.filterMap Event.republishedMsg = []) :
    (f.trace ++ new).filterMap Event.deadLetteredMsg =
      (f.trace ++ new).filterMap Event.republishedMsg ++ (f.logger.toList ++ f.dlq) := by
  rw [filterMap_append_unseen hdead, filterMap_append_unseen hrepublished, h.republished]

/-- A push goes to the end of the main queue. -/
theorem Ledger.pushed_push {max_retries : ℤ} (h : f.Ledger max_retries) {m : Message}
    {new : List Event} (hpushed : new.filterMap Event.pushedMsg = [m])
    (htaken : new.filterMap Event.takenMsg = []) :
    (f.trace ++ new).filterMap Event.pushedMsg =
      (f.trace ++ new).filterMap Event.takenMsg ++ (f.hand.waiting.toList ++ (f.queue ++ [m])) := by
  rw [filterMap_append_unseen htaken, List.filterMap_append, hpushed, h.pushed, List.append_assoc,
    List.append_assoc]

/-- A move that pushes nothing, routes nothing and drops nothing leaves the equation of the main
queue as it is. -/
theorem Ledger.pushed_unseen {max_retries : ℤ} (h : f.Ledger max_retries) {new : List Event}
    (hpushed : new.filterMap Event.pushedMsg = []) (htaken : new.filterMap Event.takenMsg = []) :
    (f.trace ++ new).filterMap Event.pushedMsg =
      (f.trace ++ new).filterMap Event.takenMsg ++ (f.hand.waiting.toList ++ f.queue) := by
  rw [filterMap_append_unseen htaken, filterMap_append_unseen hpushed, h.pushed]

/-- What the dispatcher routes or drops is what it had popped. -/
theorem Ledger.pushed_taken {max_retries : ℤ} (h : f.Ledger max_retries) {m : Message}
    {new : List Event} (hhand : f.hand = .popped m) (hpushed : new.filterMap Event.pushedMsg = [])
    (htaken : new.filterMap Event.takenMsg = [m]) :
    (f.trace ++ new).filterMap Event.pushedMsg =
      (f.trace ++ new).filterMap Event.takenMsg ++ f.queue := by
  -- The message in hand is the first that was pushed and not taken.
  have hbefore : f.trace.filterMap Event.pushedMsg =
      f.trace.filterMap Event.takenMsg ++ ([m] ++ f.queue) := by
    rw [h.pushed, hhand]
    rfl
  rw [filterMap_append_unseen hpushed, List.filterMap_append, htaken, hbefore, List.append_assoc]

/-- What the log brought is enqueued, and nothing else happened. -/
theorem filterMap_enqueued {β : Type*} {p : Event → Option β} (hp : ∀ m, p (.enqueued m) = none)
    (ms : List Message) : (ms.map .enqueued).filterMap p = [] := by
  rw [List.filterMap_map, List.filterMap_eq_nil_iff]
  exact fun m _ => hp m

/-- With what the log brought in the queue the ledger is balanced. -/
theorem ledger_start (max_retries : ℤ) (ms : List Message) :
    Ledger max_retries ⟨ms, .idle, fun _ => none, [], none, ms.map .enqueued⟩ where
  pushed := by
    have htaken : (ms.map .enqueued).filterMap Event.takenMsg = [] :=
      filterMap_enqueued (fun _ => rfl) ms
    rw [htaken, List.filterMap_map]
    exact List.filterMap_some
  fannedOut := by
    have hdispatched : (ms.map .enqueued).filterMap Event.dispatchedTo = [] :=
      filterMap_enqueued (fun _ => rfl) ms
    rw [hdispatched, List.flatMap_map]
    exact List.flatMap_eq_nil_iff.mpr fun _ _ => rfl
  requeued := by
    rw [filterMap_enqueued fun _ => rfl, filterMap_enqueued fun _ => rfl, List.filterMap_nil]
  deadLettered := by
    rw [filterMap_enqueued fun _ => rfl, filterMap_enqueued fun _ => rfl, List.filterMap_nil]
  republished := by
    rw [filterMap_enqueued fun _ => rfl, filterMap_enqueued fun _ => rfl]
    rfl

/-- A move keeps the ledger. -/
theorem Ledger.move (h : f.Ledger e.max_retries) (hmove : Move e f g) : g.Ledger e.max_retries := by
  cases hmove with
  | stay | ack => exact ⟨h.pushed, h.fannedOut, h.requeued, h.deadLettered, h.republished⟩
  | note x hx =>
    -- The notes are no column's.
    cases x with
    | published | audited | acked | heartbeat =>
      exact ⟨h.pushed_unseen rfl rfl, h.fannedOut_unseen rfl rfl, h.requeued_unseen rfl rfl,
        h.deadLettered_unseen rfl rfl, h.republished_unseen rfl rfl⟩
    | _ => cases hx
  | enqueue m hm =>
    exact ⟨h.pushed_push rfl rfl, h.fannedOut_unseen rfl rfl, h.requeued_unseen rfl rfl,
      h.deadLettered_unseen rfl rfl, h.republished_unseen rfl rfl⟩
  | requeue key entry hkey hentry hretry =>
    refine ⟨h.pushed_push rfl rfl, h.fannedOut_unseen rfl rfl, ?_, ?_,
      h.republished_unseen rfl rfl⟩
    · simp [h.requeued, requeueOf_of_lt hretry]
    · simp [h.deadLettered, deadLetterOf_of_lt hretry]
  | deadLetter key entry hkey hentry hretry =>
    refine ⟨h.pushed_unseen rfl rfl, h.fannedOut_unseen rfl rfl, ?_, ?_, ?_⟩
    · simp [h.requeued, requeueOf_of_le hretry]
    · simp [h.deadLettered, deadLetterOf_of_le hretry]
    · simp [h.republished]
  | pop m rest hhand hqueue =>
    refine ⟨?_, ?_, h.requeued, h.deadLettered, h.republished⟩
    · simp [h.pushed, hhand, hqueue]
    · simpa [hhand] using h.fannedOut
  | drop m hrouting hhand hnone =>
    refine ⟨h.pushed_taken hhand rfl rfl, ?_, h.requeued_unseen rfl rfl,
      h.deadLettered_unseen rfl rfl, h.republished_unseen rfl rfl⟩
    simpa [hhand] using h.fannedOut
  | route m t todo hrouting hhand hperm =>
    refine ⟨h.pushed_taken hhand rfl rfl, ?_, h.requeued_unseen rfl rfl,
      h.deadLettered_unseen rfl rfl, h.republished_unseen rfl rfl⟩
    simp [h.fannedOut, hhand]
  | track m t todo deadline hhand =>
    refine ⟨?_, ?_, h.requeued_unseen rfl rfl, h.deadLettered_unseen rfl rfl,
      h.republished_unseen rfl rfl⟩
    · simpa [hhand] using h.pushed
    · simp [h.fannedOut, hhand]
  | sendWritten m t todo n hhand =>
    refine ⟨?_, ?_, h.requeued_unseen rfl rfl, h.deadLettered_unseen rfl rfl,
      h.republished_unseen rfl rfl⟩
    · simpa [hhand] using h.pushed
    · simpa [hhand] using h.fannedOut
  | sendGone m t todo hhand =>
    refine ⟨?_, ?_, h.requeued, h.deadLettered, h.republished⟩
    · simpa [hhand] using h.pushed
    · simpa [hhand] using h.fannedOut
  | logPop m rest hlogger hdlq =>
    refine ⟨h.pushed, h.fannedOut, h.requeued, h.deadLettered, ?_⟩
    simp [h.republished, hlogger, hdlq]
  | republish m hlogger =>
    refine ⟨h.pushed_push rfl rfl, h.fannedOut_unseen rfl rfl, h.requeued_unseen rfl rfl,
      h.deadLettered_unseen rfl rfl, ?_⟩
    simp [h.republished, hlogger]

/-- A message is enqueued by the move that is offered it. -/
theorem Move.enqueued_cases (hmove : Move e f g) {m : Message} (hm : .enqueued m ∈ g.trace) :
    .enqueued m ∈ f.trace ∨ e.offers m := by
  cases hmove with
  | note x hx => exact .inl (mem_of_note hx rfl hm)
  | enqueue m' hm' =>
    rcases List.mem_append.mp hm with hm | hm
    · exact .inl hm
    · obtain rfl : m = m' := by simpa using hm
      exact .inr hm'
  | stay | ack | pop | sendGone | logPop => exact .inl hm
  | _ => exact .inl (by simpa using hm)

/-- A move fails one delivery at most. -/
theorem Move.failed_cases (hmove : Move e f g) :
    g.trace.filterMap Event.failedEntry = f.trace.filterMap Event.failedEntry ∨
      ∃ key entry, e.fails key ∧ f.inFlight key = some entry ∧
        g.trace.filterMap Event.failedEntry = f.trace.filterMap Event.failedEntry ++ [entry] := by
  cases hmove with
  | note x hx =>
    cases x with
    | published | audited | acked | heartbeat => exact .inl (filterMap_append_unseen rfl)
    | _ => cases hx
  | requeue key entry hkey hentry hretry | deadLetter key entry hkey hentry hretry =>
    exact .inr ⟨key, entry, hkey, hentry, List.filterMap_append⟩
  | stay | ack | pop | sendGone | logPop => exact .inl rfl
  | _ => exact .inl (filterMap_append_unseen rfl)

/-- A message is routed to the targets of its topic. -/
theorem Move.routed_cases (hmove : Move e f g) {m : Message} {ts : List Target}
    (hm : .routed m ts ∈ g.trace) : .routed m ts ∈ f.trace ∨ ts.Perm (e.targets m.topic) := by
  cases hmove with
  | note x hx => exact .inl (mem_of_note hx rfl hm)
  | route m' t todo hrouting hhand hperm =>
    rcases List.mem_append.mp hm with hm | hm
    · exact .inl hm
    · obtain ⟨rfl, rfl⟩ : m = m' ∧ ts = t :: todo := by simpa using hm
      exact .inr hperm
  | stay | ack | pop | sendGone | logPop => exact .inl hm
  | _ => exact .inl (by simpa using hm)

/-- A message is written by the dispatcher that is sending it. -/
theorem Move.written_cases (hmove : Move e f g) {n : ℕ} {m : Message}
    (hm : .written n m ∈ g.trace) :
    .written n m ∈ f.trace ∨ ∃ t todo, f.hand = .sending m t todo := by
  cases hmove with
  | note x hx => exact .inl (mem_of_note hx rfl hm)
  | sendWritten m' t todo n' hhand hn =>
    rcases List.mem_append.mp hm with hm | hm
    · exact .inl hm
    · obtain ⟨rfl, rfl⟩ : n = n' ∧ m = m' := by simpa using hm
      exact .inr ⟨t, todo, hhand⟩
  | stay | ack | pop | sendGone | logPop => exact .inl hm
  | _ => exact .inl (by simpa using hm)

end Flow

end EventQueue.Broker
