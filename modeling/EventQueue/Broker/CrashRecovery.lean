import EventQueue.Broker.Ledger
import EventQueue.Broker.Log

/-!
# What a crash costs

The engine keeps a delivery for each message and client; the log has one ACK record for a message,
written on any ACK frame. As long as an acknowledgement answers the last copy of its message that
was still pending (`lastCopy`), the two levels agree: a message that has a copy in `main_queue` or
an entry in `in_flight_` under its original topic has no ACK record, so a replay of the flushed file
pushes it again.

The invariant is about every pending copy, also one that a thread is about to push and the one in
the dispatcher's hand, since those become queue entries and deliveries. A copy under a dead-letter
topic is not covered: its message was logged under another topic, and `Logged` tells the two apart
by their lengths.

When a message has two subscribers the acknowledgement of the first is enough to take it out of the
log, `twoSubscribers`.
-/

namespace EventQueue.Broker

open Transition

variable {cfg : Config} {s t : State} {a : Action} {as : List Action} {m : Message}

/-! ## Pending copies -/

/-- The message that the thread of a connection is about to push. -/
def ClientPc.queueing : ClientPc → Option Message
  | .publishPush m => some m
  | _ => none

/-- The audit event that the DLQ logger is about to push. -/
def LoggerPc.queueing : LoggerPc → Option Message
  | .auditPush sys => some sys
  | _ => none

/-- The message in the dispatcher's hand, if it is still to be tracked for some target. -/
def DispatcherPc.pending : DispatcherPc → Option Message
  | .idle => none
  | .popped m | .tracking m _ _ => some m
  | .sending m _ todo => if todo.isEmpty then none else some m

namespace State

/-- The messages that are logged and about to enter the queue. -/
def queueing (s : State) : List Message :=
  s.conns.filterMap (fun c => c.pc.queueing) ++ s.logger.queueing.toList

/-- The copies that wait for a delivery or for its acknowledgement. -/
def pending (s : State) : List Message :=
  s.queueing ++ s.main_queue.queue ++ s.dispatcher.pending.toList ++
    s.engine.in_flight.entries.map fun e => e.2.msg

/-- The copy is the message that the log has under its identifier: its topic is the original one. -/
def original (s : State) (m : Message) : Bool :=
  (publishedAs m.msg_id s.wal.log).getLast? = some (m.topic, m.body)

/-- When the engine is told of an acknowledgement, the delivery that it forgets is the last pending
copy of its message under the original topic. -/
def lastCopy (s : State) (a : Action) : Bool :=
  match s.acking a with
  | none => true
  | some (msg_id, id) =>
    { s with engine := s.engine.ack msg_id id }.pending.all fun m =>
      m.msg_id ≠ msg_id || !s.original m

/-- An ACK frame names a delivery that is in flight to its sender. -/
def acksInFlight (s : State) (a : Action) : Bool :=
  match a with
  | .frame n type msg_id _ =>
    match s.conns[n]? with
    | some c => MessageType.ofByte type ≠ some .ack ||
        (s.engine.in_flight.lookup (msg_id, c.sock)).isSome
    | none => true
  | _ => true

end State

/-- The clients are well behaved and the identifiers distinct; the audit records fit; and every
acknowledgement answers the last copy of its message. -/
def answersLastCopy (s : State) (a : Action) : Bool :=
  s.acksInFlight a && s.freshId a && s.auditFits a && s.lastCopy a

namespace Flow

variable {e : Env} {f g : Flow}

/-- A copy that waits for a delivery or for its acknowledgement. -/
def Pending (f : Flow) (m : Message) : Prop :=
  m ∈ f.queue ∨ m ∈ f.hand.pending ∨ ∃ key entry, f.inFlight key = some entry ∧ entry.msg = m

/-- The copy that the dispatcher goes on with after a send is one that it had. -/
theorem mem_pending_next {t : TopicRouter.Target} {todo : List TopicRouter.Target} {m' : Message}
    (h : m' ∈ (DispatcherPc.next m todo).pending) :
    m' ∈ (DispatcherPc.sending m t todo).pending := by
  cases todo with
  | nil => simp [DispatcherPc.next, DispatcherPc.pending] at h
  | cons t' todo => simpa [DispatcherPc.next, DispatcherPc.pending] using h

/-- A copy that is pending after a move was pending with the same record, or enters the queue for
the first time, or is a dead letter. -/
theorem Move.pending (hmove : Move e f g) (h : g.Pending m) :
    (∃ m', f.Pending m' ∧ WalRecord.ofMessage m' = .ofMessage m) ∨ e.offers m ∨
      f.logger = some m := by
  -- A copy that stays as it is.
  have hsame : ∀ {m'}, f.Pending m' → m' = m →
      (∃ m', f.Pending m' ∧ WalRecord.ofMessage m' = .ofMessage m) ∨ e.offers m ∨
        f.logger = some m := fun h heq => .inl ⟨_, h, by rw [heq]⟩
  cases hmove with
  | stay | note => exact hsame h rfl
  | enqueue m' hm =>
    rcases h with h | h
    · rcases List.mem_append.mp h with h | h
      · exact hsame (.inl h) rfl
      · obtain rfl : m = m' := by simpa using h
        exact .inr (.inl hm)
    · exact hsame (.inr h) rfl
  | ack key =>
    rcases h with h | h | ⟨key', entry, hentry, hm⟩
    · exact hsame (.inl h) rfl
    · exact hsame (.inr (.inl h)) rfl
    · exact hsame (.inr (.inr ⟨key', entry, eq_some_of_update_none hentry, rfl⟩)) hm
  | requeue key entry hkey hentry hretry =>
    rcases h with h | h | ⟨key', entry', hentry', hm⟩
    · rcases List.mem_append.mp h with h | h
      · exact hsame (.inl h) rfl
      · obtain rfl : m = entry.requeueMsg := by simpa using h
        -- The count is one higher, but a record does not have it.
        exact .inl ⟨entry.msg, .inr (.inr ⟨key, entry, hentry, rfl⟩), rfl⟩
    · exact hsame (.inr (.inl h)) rfl
    · exact hsame (.inr (.inr ⟨key', entry', eq_some_of_update_none hentry', rfl⟩)) hm
  | deadLetter key entry hkey hentry hretry =>
    rcases h with h | h | ⟨key', entry', hentry', hm⟩
    · exact hsame (.inl h) rfl
    · exact hsame (.inr (.inl h)) rfl
    · exact hsame (.inr (.inr ⟨key', entry', eq_some_of_update_none hentry', rfl⟩)) hm
  | pop m' rest hhand hqueue =>
    rcases h with h | h | h
    · exact hsame (.inl (hqueue ▸ List.mem_cons_of_mem _ h)) rfl
    · obtain rfl : m' = m := by simpa [DispatcherPc.pending] using h
      exact hsame (.inl (by simp [hqueue])) rfl
    · exact hsame (.inr (.inr h)) rfl
  | drop m' hrouting hhand hnone =>
    rcases h with h | h | h
    · exact hsame (.inl h) rfl
    · simp [DispatcherPc.pending] at h
    · exact hsame (.inr (.inr h)) rfl
  | route m' t todo hrouting hhand hperm =>
    rcases h with h | h | h
    · exact hsame (.inl h) rfl
    · exact hsame (.inr (.inl (by simpa [hhand, DispatcherPc.pending] using h))) rfl
    · exact hsame (.inr (.inr h)) rfl
  | track m' t todo deadline hhand =>
    -- The message itself is pending as long as a target is left.
    have hm' : m' ∈ f.hand.pending := by simp [hhand, DispatcherPc.pending]
    rcases h with h | h | ⟨key', entry', hentry', hm⟩
    · exact hsame (.inl h) rfl
    · refine hsame (.inr (.inl hm')) ?_
      have h : (if todo.isEmpty then none else some m') = some m := h
      split_ifs at h
      exact Option.some.inj h
    · rcases eq_or_eq_some_of_update hentry' with ⟨-, rfl⟩ | hentry'
      · exact hsame (.inr (.inl hm')) hm
      · exact hsame (.inr (.inr ⟨key', entry', hentry', rfl⟩)) hm
  | sendWritten m' t todo n hhand | sendGone m' t todo hhand =>
    rcases h with h | h | h
    · exact hsame (.inl h) rfl
    · exact hsame (.inr (.inl (hhand ▸ mem_pending_next h))) rfl
    · exact hsame (.inr (.inr h)) rfl
  | logPop m' rest hlogger hdlq => exact hsame h rfl
  | republish m' hlogger =>
    rcases h with h | h
    · rcases List.mem_append.mp h with h | h
      · exact hsame (.inl h) rfl
      · obtain rfl : m = m' := by simpa using h
        exact .inr (.inr hlogger)
    · exact hsame (.inr h) rfl

end Flow

/-- The list of the pending copies, by where they are. -/
theorem mem_pending : m ∈ s.pending ↔ m ∈ s.queueing ∨ s.flow.Pending m := by
  have hflight : m ∈ (s.engine.in_flight.entries.map fun e => e.2.msg) ↔
      ∃ key entry, s.engine.in_flight.lookup key = some entry ∧ entry.msg = m := by
    simp only [List.mem_map, Sigma.exists]
    exact exists_congr fun key => exists_congr fun entry =>
      and_congr_left fun _ => AList.mem_entries_iff
  simp only [State.pending, List.mem_append, hflight, Flow.Pending, State.flow, or_assoc,
    Option.mem_toList, Option.mem_def]

/-- A message that a thread is about to push after a step was about to be pushed, or was just
logged. -/
theorem step_queueing (h : s.step cfg a = some t) (hm : m ∈ t.queueing) :
    m ∈ s.queueing ∨ s.logging a = some m := by
  rcases List.mem_append.mp hm with hm | hm
  · obtain ⟨c, hc, hm⟩ := List.mem_filterMap.mp hm
    obtain ⟨k, hk⟩ := List.mem_iff_getElem?.mp hc
    -- A connection's thread: it has appended the record, or had done so before.
    cases step_came h hk with
    | same hk =>
      exact .inl (List.mem_append_left _ (List.mem_filterMap.mpr ⟨c, List.mem_of_getElem? hk, hm⟩))
    | elsewhere hmessage =>
      cases hpc : c.pc <;> simp_all [ClientPc.queueing, ClientPc.message]
    | append m' c₀ ha hk hpc₀ hpc =>
      obtain rfl : m' = m := by simpa [hpc, ClientPc.queueing] using hm
      exact .inr (by simp [ha, State.logging, hk, hpc₀])
    | publish m' hpc | ack msg_id type payload ha htype c₀ hk hsock hpc
    | ackEngine msg_id c₀ ha hk hpc₀ hsock hpc => simp [hpc, ClientPc.queueing] at hm
  · have hm : t.logger.queueing = some m := by simpa using hm
    have hsame : s.logger.queueing = some m → m ∈ s.queueing := fun hm =>
      List.mem_append_right _ (by simp [hm])
    -- The DLQ logger, likewise.
    cases step_sound h with
    | auditAppend sys hpc =>
      obtain rfl : sys = m := by simpa [LoggerPc.queueing] using hm
      exact .inr (by simp [State.logging, hpc])
    | logPop | republish | audit | auditPush => simp [LoggerPc.queueing] at hm
    | nackPush n c msg_id u hn hpc hfail => exact .inl (hsame (hfail.logger_eq ▸ hm))
    | disconnectPush n c closing key t hn hpc hkey hfail =>
      exact .inl (hsame (hfail.logger_eq ▸ hm))
    | scanPush now deadline key rest entry t hpc hhead hnow hentry hdue hfail =>
      exact .inl (hsame (hfail.logger_eq ▸ hm))
    | _ => exact .inl (hsame hm)

/-- The message that an action pushes for the first time was about to be pushed. -/
theorem queueing_of_offered (h : s.offered a = some m) : m ∈ s.queueing := by
  cases a with
  | client n =>
    obtain ⟨c, hc, hm⟩ := Option.bind_eq_some_iff.mp h
    refine List.mem_append_left _ (List.mem_filterMap.mpr ⟨c, List.mem_of_getElem? hc, ?_⟩)
    cases hpc : c.pc <;> simp_all [ClientPc.queueing]
  | log =>
    refine List.mem_append_right _ ?_
    cases hpc : s.logger <;> simp_all [State.offered, LoggerPc.queueing]
  | _ => simp [State.offered] at h

/-- A copy that is pending after a step was pending with the same record, or was just logged, or is
a dead letter. -/
theorem step_pending (h : s.step cfg a = some t) (hm : m ∈ t.pending) :
    (∃ m' ∈ s.pending, WalRecord.ofMessage m' = .ofMessage m) ∨ s.logging a = some m ∨
      s.flow.logger = some m := by
  rcases mem_pending.mp hm with hm | hm
  · rcases step_queueing h hm with hm | hm
    · exact .inl ⟨m, mem_pending.mpr (.inl hm), rfl⟩
    · exact .inr (.inl hm)
  · rcases (step_move h).pending hm with ⟨m', hm', heq⟩ | hoffers | hletter
    · exact .inl ⟨m', mem_pending.mpr (.inr hm'), heq⟩
    · exact .inl ⟨m, mem_pending.mpr (.inl (queueing_of_offered hoffers)), rfl⟩
    · exact .inr (.inr hletter)

/-- An acknowledgement changes the engine, and none of the copies elsewhere. -/
theorem step_acking (h : s.step cfg a = some t) {msg_id : UInt64} {id : ClientId}
    (hkey : s.acking a = some (msg_id, id)) :
    t.flow = { s with engine := s.engine.ack msg_id id }.flow := by
  cases step_sound h with
  | ackEngine n c msg_id' hn hpc hmu =>
    obtain ⟨rfl, rfl⟩ : msg_id' = msg_id ∧ c.sock = id := by
      simpa [State.acking, hn, hpc] using hkey
    rfl
  | publishAppend n c | publishPush n c | ackWal n c | nackNone n c | nackLock n c | nackPush n c
  | eraseClient n c | unsubscribe n c | disconnectLock n c | disconnectPush n c
  | disconnectDone n c => simp_all [State.acking]
  | _ => simp [State.acking] at hkey

/-! ## The invariant -/

/-- A copy's message is in the log, under its topic or, for a dead letter, under a shorter one. -/
def Logged (log : List WalRecord) (m : Message) : Prop :=
  ∃ topic, (publishedAs m.msg_id log).getLast? = some (topic, m.body) ∧
    (m.topic = topic ∨ topic.length < m.topic.length)

/-- The log and the engine agree on what is pending. -/
structure Recoverable (rs₀ : List WalRecord) (s : State) : Prop where
  /-- The log reads back. -/
  readable : s.wal.Readable rs₀
  /-- The messages that are about to be logged fit. -/
  fits : PublishFits s
  /-- The deliveries are filed under their messages. -/
  filed : s.flow.Filed
  /-- Every copy is logged. -/
  copies : s.flow.Forall (Logged s.wal.log)
  /-- A dead letter is under a longer topic than the one that was logged. -/
  letters : ∀ m ∈ s.flow.dlq ++ s.flow.logger.toList, ∃ topic body,
    (publishedAs m.msg_id s.wal.log).getLast? = some (topic, body) ∧
      topic.length < m.topic.length
  /-- A message that is about to enter the queue is logged. -/
  queueing : ∀ m ∈ s.queueing, s.original m = true
  /-- So is one that has entered it. -/
  enqueued : ∀ m, .enqueued m ∈ s.trace → s.original m = true
  /-- A message that a thread acknowledges is logged. -/
  acking : ∀ (k : ℕ) (c : Conn) (msg_id : UInt64), s.conns[k]? = some c →
    c.pc.acking = some msg_id → publishedAs msg_id s.wal.log ≠ []
  /-- The log has no acknowledgement of a pending copy under its original topic, -/
  acked : ∀ m ∈ s.pending, s.original m = true → .ack m.msg_id ∉ s.wal.log
  /-- and no thread is about to add one. -/
  answered : ∀ m ∈ s.pending, s.original m = true → ∀ (k : ℕ) (c : Conn),
    s.conns[k]? = some c → c.pc ≠ .ackWal m.msg_id

theorem original_iff :
    s.original m = true ↔ (publishedAs m.msg_id s.wal.log).getLast? = some (m.topic, m.body) := by
  simp [State.original]

/-- A message that is logged by a step is in the log after it. -/
theorem original_of_logging (h : s.step cfg a = some t) (hm : s.logging a = some m) :
    t.original m = true := by
  rw [original_iff, log_of_logging h hm]
  exact getLast?_publishedAs_ofMessage m _

namespace Recoverable

variable {rs₀ : List WalRecord}

/-- A pending copy is logged. -/
theorem logged_of_pending (hs : Recoverable rs₀ s) (hm : m ∈ s.pending) : Logged s.wal.log m := by
  rcases mem_pending.mp hm with hm | hm | hm | ⟨key, entry, hentry, rfl⟩
  · exact ⟨m.topic, original_iff.mp (hs.queueing m hm), .inl rfl⟩
  · exact hs.copies.queue m hm
  · refine hs.copies.hand m ?_
    have hm : s.dispatcher.pending = some m := hm
    show s.dispatcher.message = some m
    cases hpc : s.dispatcher <;> simp_all [DispatcherPc.pending]
  · exact hs.copies.inFlight key entry hentry

/-- A step keeps a copy logged. -/
theorem logged_step (hok : s.freshId a = true) (h : s.step cfg a = some t)
    (hm : Logged s.wal.log m) : Logged t.wal.log m := by
  obtain ⟨topic, hlast, htopic⟩ := hm
  exact ⟨topic, getLast?_step hok h hlast, htopic⟩

/-- A step keeps every copy logged. -/
theorem copies_step (hs : Recoverable rs₀ s) (hok : s.freshId a = true)
    (h : s.step cfg a = some t) : t.flow.Forall (Logged t.wal.log) := by
  have hold := hs.copies.imp fun m => logged_step hok h
  refine hold.move hs.filed (step_move h) (fun m hm _ => ?_) (fun m hm _ => hm) ?_
  · have hlast := original_iff.mp (hs.queueing m (queueing_of_offered hm))
    exact ⟨m.topic, getLast?_step hok h hlast, .inl rfl⟩
  · rintro m ⟨topic, hlast, htopic⟩ -
    refine ⟨topic, hlast, .inr ?_⟩
    rw [List.length_append, length_dlqPrefix]
    rcases htopic with rfl | htopic
    · omega
    · omega

/-- A step keeps the dead letters under longer topics. -/
theorem letters_step (hs : Recoverable rs₀ s) (hok : s.freshId a = true)
    (h : s.step cfg a = some t) (hm : m ∈ t.flow.dlq ++ t.flow.logger.toList) :
    ∃ topic body, (publishedAs m.msg_id t.wal.log).getLast? = some (topic, body) ∧
      topic.length < m.topic.length := by
  rcases (step_move h).letters hm with hm | ⟨key, entry, hentry, rfl⟩
  · obtain ⟨topic, body, hlast, hlt⟩ := hs.letters m hm
    exact ⟨topic, body, getLast?_step hok h hlast, hlt⟩
  · obtain ⟨topic, hlast, htopic⟩ := hs.copies.inFlight key entry hentry
    refine ⟨topic, entry.msg.body, getLast?_step hok h hlast, ?_⟩
    simp only [InFlight.dlqMsg, List.length_append, length_dlqPrefix]
    rcases htopic with htopic | htopic
    · rw [htopic]
      omega
    · omega

/-- A thread that acknowledges after a step does so for a message that is logged. -/
theorem acking_step (hs : Recoverable rs₀ s) (hacks : s.acksInFlight a = true)
    (hok : s.freshId a = true) (h : s.step cfg a = some t) {k : ℕ} {c : Conn} {msg_id : UInt64}
    (hk : t.conns[k]? = some c) (hc : c.pc.acking = some msg_id) :
    publishedAs msg_id t.wal.log ≠ [] := by
  have hkeep : publishedAs msg_id s.wal.log ≠ [] → publishedAs msg_id t.wal.log ≠ [] := by
    intro hne
    rwa [publishedAs_step hok h hne]
  cases step_came h hk with
  | same hk => exact hkeep (hs.acking k c msg_id hk hc)
  | elsewhere _ hacking => simp [hc] at hacking
  | ack msg_id' type payload ha htype c₀ hk hsock hpc htrace =>
    obtain rfl : msg_id' = msg_id := by simpa [hpc, ClientPc.acking] using hc
    -- The delivery that the frame names is in flight, so its message is logged.
    have hentry : (s.engine.in_flight.lookup (msg_id', c₀.sock)).isSome := by
      simpa [State.acksInFlight, ha, hk, htype] using hacks
    obtain ⟨entry, hentry⟩ := Option.isSome_iff_exists.mp hentry
    obtain ⟨topic, hlast, -⟩ := hs.copies.inFlight _ entry hentry
    have hid : entry.msg.msg_id = msg_id' :=
      (congrArg Prod.fst (hs.filed _ entry hentry).1).symm
    exact hkeep (hid ▸ publishedAs_ne_nil hlast)
  | ackEngine msg_id' c₀ ha hk hpc₀ hsock hpc =>
    obtain rfl : msg_id' = msg_id := by simpa [hpc, ClientPc.acking] using hc
    exact hkeep (hs.acking k c₀ msg_id' hk (by simp [hpc₀, ClientPc.acking]))
  | publish m hpc | append m c₀ ha hk hpc₀ hpc => simp [hpc, ClientPc.acking] at hc

/-- A pending copy under its original topic was one before the step, or was just logged. -/
theorem pending_step (hs : Recoverable rs₀ s) (hok : s.freshId a = true)
    (h : s.step cfg a = some t) (hm : m ∈ t.pending) (horig : t.original m = true) :
    (∃ m' ∈ s.pending, m'.msg_id = m.msg_id ∧ s.original m' = true) ∨ s.logging a = some m := by
  rcases step_pending h hm with ⟨m', hm', heq⟩ | hm | hletter
  · obtain ⟨hid, htopic, hbody⟩ : m'.msg_id = m.msg_id ∧ m'.topic = m.topic ∧ m'.body = m.body := by
      simpa [WalRecord.ofMessage] using heq
    obtain ⟨topic, hlast, -⟩ := hs.logged_of_pending hm'
    refine .inl ⟨m', hm', hid, ?_⟩
    rw [original_iff] at horig ⊢
    rw [hid, htopic, hbody, ← horig, publishedAs_step hok h (hid ▸ publishedAs_ne_nil hlast)]
  · exact .inr hm
  · -- a dead letter is under another topic
    obtain ⟨topic, body, hlast, hlt⟩ := hs.letters m (by simp [hletter])
    have heq := (getLast?_step hok h hlast).symm.trans (original_iff.mp horig)
    obtain ⟨rfl, -⟩ : topic = m.topic ∧ body = m.body := by simpa using heq
    omega

/-- A step adds no acknowledgement of a copy that stays pending. -/
theorem acked_step (hs : Recoverable rs₀ s) (hok : s.freshId a = true) (h : s.step cfg a = some t)
    (hm : m ∈ t.pending) (horig : t.original m = true) : .ack m.msg_id ∉ t.wal.log := by
  rcases hs.pending_step hok h hm horig with ⟨m', hm', hid, horig'⟩ | hlogging
  · have hold : .ack m.msg_id ∉ s.wal.log := hid ▸ hs.acked m' hm' horig'
    cases step_logs h with
    | nothing hnone hrecords => rwa [log_same h hrecords]
    | message m'' hm'' hrecords =>
      rw [log_append h hrecords]
      simpa [WalRecord.ofMessage] using hold
    | ack k c msg_id hk hpc hnone hrecords =>
      rw [log_append h hrecords]
      have hne : m.msg_id ≠ msg_id := by
        rintro rfl
        exact hs.answered m' hm' horig' k c hk (hid ▸ hpc)
      simpa [hne] using hold
  · rw [log_of_logging h hlogging]
    simpa [WalRecord.ofMessage] using ack_not_mem (fresh_of_freshId hok hlogging)

/-- After a step no thread is about to acknowledge a copy that stays pending. -/
theorem answered_step (hs : Recoverable rs₀ s) (hok : s.freshId a = true)
    (hlastCopy : s.lastCopy a = true) (h : s.step cfg a = some t) (hm : m ∈ t.pending)
    (horig : t.original m = true) {k : ℕ} {c : Conn} (hk : t.conns[k]? = some c) :
    c.pc ≠ .ackWal m.msg_id := by
  intro hpc
  cases step_came h hk with
  | same hk =>
    rcases hs.pending_step hok h hm horig with ⟨m', hm', hid, horig'⟩ | hlogging
    · exact hs.answered m' hm' horig' k c hk (hid ▸ hpc)
    · exact hs.acking k c m.msg_id hk (by simp [hpc, ClientPc.acking])
        (publishedAs_eq_nil (fresh_of_freshId hok hlogging))
  | elsewhere _ hacking => simp [hpc, ClientPc.acking] at hacking
  | ackEngine msg_id c₀ ha hk hpc₀ hsock hpc' =>
    obtain rfl : m.msg_id = msg_id := by simpa [hpc] using hpc'
    have hkey : s.acking a = some (m.msg_id, c₀.sock) := by simp [ha, State.acking, hk, hpc₀]
    have hnone : s.logging a = none := by simp [ha, State.logging, hk, hpc₀]
    -- The copy is pending apart from the delivery that is acknowledged.
    have hpending : m ∈ { s with engine := s.engine.ack m.msg_id c₀.sock }.pending := by
      rcases mem_pending.mp hm with hm | hm
      · refine mem_pending.mpr (.inl ?_)
        exact (step_queueing h hm).resolve_right (by simp [hnone])
      · exact mem_pending.mpr (.inr (step_acking h hkey ▸ hm))
    have hsame : publishedAs m.msg_id t.wal.log = publishedAs m.msg_id s.wal.log :=
      publishedAs_step hok h (hs.acking k c₀ m.msg_id hk (by simp [hpc₀, ClientPc.acking]))
    have hnot : s.original m = false := by
      have hall := List.all_eq_true.mp (by simpa only [State.lastCopy, hkey] using hlastCopy) m
        hpending
      simpa using hall
    rw [original_iff, hsame, ← original_iff] at horig
    simp [hnot] at horig
  | publish m' hpc' | append m' c₀ ha hk hpc₀ hpc'
  | ack msg_id type payload ha htype c₀ hk hsock hpc' =>
    simp [hpc] at hpc'

/-- A step whose acknowledgement answers a last copy keeps the invariant. -/
theorem step (hs : Recoverable rs₀ s) (hok : answersLastCopy s a = true)
    (h : s.step cfg a = some t) : Recoverable rs₀ t := by
  obtain ⟨⟨⟨hacks, hfresh⟩, hfits⟩, hlast⟩ : ((s.acksInFlight a = true ∧ s.freshId a = true) ∧
      s.auditFits a = true) ∧ s.lastCopy a = true := by
    simpa [answersLastCopy] using hok
  have horig : ∀ m, s.original m = true → t.original m = true := fun m hm =>
    original_iff.mpr (getLast?_step hfresh h (original_iff.mp hm))
  exact
    { readable := readable_step hs.readable hs.fits hfits h
      fits := hs.fits.step h
      filed := hs.filed.move (step_move h)
      copies := hs.copies_step hfresh h
      letters := fun m hm => hs.letters_step hfresh h hm
      queueing := fun m hm => (step_queueing h hm).elim (fun hm => horig m (hs.queueing m hm))
        fun hm => original_of_logging h hm
      enqueued := fun m hm => ((step_move h).enqueued_cases hm).elim
        (fun hm => horig m (hs.enqueued m hm))
        fun hm => horig m (hs.queueing m (queueing_of_offered hm))
      acking := fun k c msg_id hk hc => hs.acking_step hacks hfresh h hk hc
      acked := fun m hm horig => hs.acked_step hfresh h hm horig
      answered := fun m hm horig k c hk => hs.answered_step hfresh hlast h hm horig hk }

end Recoverable

/-- A session on a log of whole records starts with the invariant. -/
theorem recoverable_of_start {rs₀ : List WalRecord} {order : List Message}
    (hfits : ∀ r ∈ rs₀, r.Fits)
    (h : State.start cfg (walCodec.encodeAll rs₀) order = some s) : Recoverable rs₀ s := by
  obtain ⟨hwal, hconns, hlogger⟩ := wal_of_start h
  have hflow := flow_of_start h
  have hlog : s.wal.log = rs₀ := by
    simp [hwal, WalWriter.log, WalWriter.create, walCodec.run_encodeAll hfits]
  have hqueueing : s.queueing = [] := by
    simp [State.queueing, hconns, hlogger, LoggerPc.queueing]
  have hreplayed : ∀ m ∈ State.replayed order, .ack m.msg_id ∉ s.wal.log ∧
      (publishedAs m.msg_id s.wal.log).getLast? = some (m.topic, m.body) := by
    intro m hm
    obtain ⟨hack, hlast, -⟩ := logged_of_replayed h hm
    rw [walCodec.run_encodeAll hfits] at hack hlast
    exact hlog ▸ ⟨hack, hlast⟩
  have hpending : ∀ m ∈ s.pending, m ∈ State.replayed order := by
    intro m hm
    rcases mem_pending.mp hm with hm | hm
    · simp [hqueueing] at hm
    · simpa [hflow, Flow.Pending, DispatcherPc.pending] using hm
  refine ⟨⟨by simp [hwal, WalWriter.create], hfits, by simp [hwal, WalWriter.create]⟩,
    ?_, ?_, ?_, ?_,
    ?_, ?_, ?_, fun m hm _ => (hreplayed m (hpending m hm)).1, ?_⟩
  · simp [PublishFits, hconns]
  · simp [Flow.Filed, hflow]
  · rw [hflow]
    refine ⟨fun m hm => ⟨m.topic, (hreplayed m hm).2, .inl rfl⟩, ?_, ?_, ?_, ?_⟩ <;> simp
  · simp [hflow]
  · simp [hqueueing]
  · intro m hm
    have htrace : s.trace = (State.replayed order).map .enqueued := congrArg Flow.trace hflow
    obtain ⟨m', hm', heq⟩ := List.mem_map.mp (htrace ▸ hm)
    obtain rfl : m' = m := by simpa using heq
    exact original_iff.mpr (hreplayed m' hm').2
  · simp [hconns]
  · simp [hconns]

/-- A message that has a copy in `main_queue` or in flight under its original topic is replayed from
the file, when every record is flushed: in every run of well-behaved clients on distinct identifiers
in which every acknowledgement answers the last pending copy of its message. -/
theorem crash_recovery {rs₀ : List WalRecord} {order : List Message} (hfits : ∀ r ∈ rs₀, r.Fits)
    (hstart : State.start cfg (walCodec.encodeAll rs₀) order = some s)
    (hrun : Run (State.step cfg) (answersLastCopy · ·) s as t) (hflushed : t.wal.AllFlushed)
    {m₀ : Message} (hm₀ : .enqueued m₀ ∈ t.trace) (hm : m ∈ t.main_queue.queue ∨
      ∃ key entry, t.engine.in_flight.lookup key = some entry ∧ entry.msg = m)
    (hid : m.msg_id = m₀.msg_id) (htopic : m.topic = m₀.topic) :
    ⟨m₀.msg_id, m₀.topic, m₀.body, 0, 0⟩ ∈ replayMessages t.wal.file ∧
      .ack m₀.msg_id ∉ t.wal.log := by
  have hinv : Recoverable rs₀ t :=
    hrun.invariant (fun s a t hs hok h => hs.step hok h) (recoverable_of_start hfits hstart)
  have hlast := original_iff.mp (hinv.enqueued m₀ hm₀)
  have hpending : m ∈ t.pending := by
    refine mem_pending.mpr (.inr ?_)
    rcases hm with hm | hm
    · exact .inl hm
    · exact .inr (.inr hm)
  have horig : t.original m = true := by
    obtain ⟨topic, hlogged, -⟩ := hinv.logged_of_pending hpending
    have heq := (hid ▸ hlogged).symm.trans hlast
    obtain ⟨-, hbody⟩ : topic = m₀.topic ∧ m.body = m₀.body := by simpa using heq
    rw [original_iff, hid, hlast, htopic, hbody]
  have hack := hid ▸ hinv.acked m hpending horig
  exact ⟨hinv.readable.mem_replayMessages hflushed hlast hack, hack⟩

/-- A run in which one consumer acknowledges the first of two messages. -/
def firstOfTwo : List Action :=
  [.accept 5, .accept 6, .frame 0 0x02 0 [0, 1, 0x74, 0, 0], .frame 1 0x01 0 [0, 1, 0x74],
    .client 1, .client 1, .frame 1 0x01 0 [0, 1, 0x74], .client 1, .client 1, .pop,
    .route [⟨[0x74], ascii "__unique_5", 5⟩], .track 0, .send, .pop,
    .route [⟨[0x74], ascii "__unique_5", 5⟩], .track 0, .send, .frame 0 0x03 1 [], .client 0,
    .client 0, .flush, .flush, .flush, .flush]

/-- In that run the second message, which is in flight, is replayed. -/
theorem crash_recovery_firstOfTwo :
    ∃ t, Run (State.step ⟨4, 3, 5000⟩) (answersLastCopy · ·) (State.init ⟨4, 3, 5000⟩)
        firstOfTwo t ∧
      t.wal.AllFlushed ∧ .ack 1 ∈ t.wal.log ∧
      (t.engine.in_flight.lookup (2, 5)).map InFlight.msg = some ⟨2, [0x74], [], 0, 1⟩ ∧
      ⟨2, [0x74], [], 0, 0⟩ ∈ replayMessages t.wal.file := by
  obtain ⟨t, ht, hend⟩ := (Option.any_eq_true _ _).mp
    (show (execChecked (State.step ⟨4, 3, 5000⟩) (answersLastCopy · ·)
      (State.init ⟨4, 3, 5000⟩) firstOfTwo).any (fun t => t.wal.AllFlushed ∧ .ack 1 ∈ t.wal.log ∧
        (t.engine.in_flight.lookup (2, 5)).map InFlight.msg = some ⟨2, [0x74], [], 0, 1⟩ ∧
        .enqueued ⟨2, [0x74], [], 0, 1⟩ ∈ t.trace) = true
      by decide)
  obtain ⟨hflushed, hack, hentry, henq⟩ := of_decide_eq_true hend
  have hfits : ∀ r ∈ ([] : List WalRecord), r.Fits := by simp
  refine ⟨t, run_of_execChecked ht, hflushed, hack, hentry, ?_⟩
  exact (crash_recovery hfits (State.start_nil _) (run_of_execChecked ht) hflushed henq
    (.inr ⟨_, Option.map_eq_some_iff.mp hentry⟩) rfl rfl).1

/-- A run in which one of two subscribers of a message acknowledges it. -/
def twoSubscribers : List Action :=
  [.accept 5, .accept 6, .accept 7, .frame 0 0x02 0 [0, 1, 0x74, 0, 0],
    .frame 2 0x02 0 [0, 1, 0x74, 0, 0], .frame 1 0x01 0 [0, 1, 0x74], .client 1, .client 1, .pop,
    .route [⟨[0x74], ascii "__unique_7", 7⟩, ⟨[0x74], ascii "__unique_5", 5⟩], .track 0, .send,
    .track 0, .send, .frame 0 0x03 1 [], .client 0, .client 0, .flush, .flush, .flush, .flush]

/-- In that run the clients are well behaved, the message is in flight to the other subscriber, and
a replay of the flushed file does not push it. -/
theorem pending_delivery_lost :
    ∃ t, Run (State.step ⟨4, 3, 5000⟩) (fun s a => s.acksInFlight a && s.freshId a)
        (State.init ⟨4, 3, 5000⟩) twoSubscribers t ∧
      t.wal.AllFlushed ∧ .enqueued ⟨1, [0x74], [], 0, 0⟩ ∈ t.trace ∧
      (t.engine.in_flight.lookup (1, 7)).map InFlight.msg = some ⟨1, [0x74], [], 0, 0⟩ ∧
      ⟨1, [0x74], [], 0, 0⟩ ∉ replayMessages t.wal.file := by
  obtain ⟨t, ht, hend⟩ := (Option.any_eq_true _ _).mp
    (show (execChecked (State.step ⟨4, 3, 5000⟩) (fun s a => s.acksInFlight a && s.freshId a)
      (State.init ⟨4, 3, 5000⟩) twoSubscribers).any (fun t => t.wal.AllFlushed ∧
        .enqueued ⟨1, [0x74], [], 0, 0⟩ ∈ t.trace ∧
        (t.engine.in_flight.lookup (1, 7)).map InFlight.msg = some ⟨1, [0x74], [], 0, 0⟩ ∧
        ⟨1, [0x74], [], 0, 0⟩ ∉ replayMessages t.wal.file) = true
      by decide)
  exact ⟨t, run_of_execChecked ht, of_decide_eq_true hend⟩

end EventQueue.Broker
