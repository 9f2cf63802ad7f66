import EventQueue.Broker.Ledger
import EventQueue.Broker.MessageIdentity
import EventQueue.Lib.Counting

/-!
# Dead-lettering

A message that fails once too often is dead-lettered: its copy under `$DLQ.` goes back to the main
queue with no failure behind it, and so does an audit event on `$SYS.dlq`. Both are routed like any
other message, and `requeue_or_dlq` does not ask where a message comes from. A subscriber of `*`
that never answers gets the dead letter, fails it, and has it dead-lettered in turn, with an audit
event for each (`dead_letter_of_dead_letter`): the two feed on themselves.

The broker's own messages come to an end in every run in which no delivery on one of its own topics
uses up its retries (`buriesClientTopics`). There every dead letter is one of a message that a
client published, and the broker makes two messages at most for each.
-/

namespace EventQueue.Broker

open TopicRouter (Target)
open Transition (Run exec execChecked run_of_execChecked)

/-- The topic prefix of audit events. -/
def sysPrefix : Bytes := ascii "$SYS."

/-- A topic of the broker's own messages. -/
def brokerTopic (topic : Bytes) : Bool := dlqPrefix.isPrefixOf topic || sysPrefix.isPrefixOf topic

/-- A topic that a message of the broker would get when it is dead-lettered. -/
def doubledTopic (topic : Bytes) : Bool :=
  (dlqPrefix ++ dlqPrefix).isPrefixOf topic || (dlqPrefix ++ sysPrefix).isPrefixOf topic

/-- A dead letter's topic is doubled exactly when it comes from a topic of the broker. -/
theorem doubledTopic_dlqPrefix_append (topic : Bytes) :
    doubledTopic (dlqPrefix ++ topic) = brokerTopic topic := by
  have hstarts : ∀ l : Bytes, (dlqPrefix ++ l).isPrefixOf (dlqPrefix ++ topic) =
      l.isPrefixOf topic := fun l => by
    rw [Bool.eq_iff_iff, List.isPrefixOf_iff_prefix, List.isPrefixOf_iff_prefix,
      List.prefix_append_right_inj]
  rw [doubledTopic, brokerTopic, hstarts, hstarts]

/-- A dead letter is on a topic of the broker. -/
theorem brokerTopic_dlqPrefix_append (topic : Bytes) : brokerTopic (dlqPrefix ++ topic) = true := by
  have hstarts := List.isPrefixOf_iff_prefix.mpr (List.prefix_append dlqPrefix topic)
  rw [brokerTopic, hstarts, Bool.true_or]

/-- The topic of an audit event is not doubled. -/
theorem doubledTopic_sysDlqTopic : doubledTopic sysDlqTopic = false := by decide

/-- The message of a PUBLISH frame. -/
@[simp] def Event.publishedMsg : Event → Option Message
  | .published _ m => some m
  | _ => none

/-- The audit event that was made. -/
@[simp] def Event.auditedMsg : Event → Option Message
  | .audited m => some m
  | _ => none

/-- The messages that came from outside: those that the log brought, and those of PUBLISH frames. -/
def received (order : List Message) (trace : List Event) : List Message :=
  State.replayed order ++ trace.filterMap Event.publishedMsg

/-- Those of them that are not on a topic of the broker. -/
def clientMessages (order : List Message) (trace : List Event) : List Message :=
  (received order trace).filter fun m => !brokerTopic m.topic

/-- The messages that the broker made: dead letters and audit events. -/
def made (trace : List Event) : List Message :=
  trace.filterMap Event.deadLetteredMsg ++ trace.filterMap Event.auditedMsg

/-- The dead letter of a message. -/
def Message.deadLetter (m : Message) : Message :=
  ⟨m.msg_id, dlqPrefix ++ m.topic, m.body, 0, m.origin⟩

/-- What a copy in the broker is, when the messages that came from outside are `ms`. -/
inductive Kind (ms : List Message) (m : Message) : Prop
  /-- A copy of one of them. -/
  | client (m₀ : Message) (hm₀ : m₀ ∈ ms)
      (hm : m = { m₀ with retry_count := m.retry_count })
  /-- A dead letter of one that is not on a topic of the broker. -/
  | letter (m₀ : Message) (hm₀ : m₀ ∈ ms) (htopic : brokerTopic m₀.topic = false)
      (hm : m = { m₀.deadLetter with retry_count := m.retry_count })
  /-- An audit event. -/
  | audit (htopic : m.topic = sysDlqTopic)

/-- A delivery that uses up its retries is not on a topic of the broker. -/
def buriesClientTopics (cfg : Config) (s : State) (a : Action) : Bool :=
  match (s.failing a).bind fun key => s.engine.in_flight.lookup key with
  | none => true
  | some entry => entry.retry_count < cfg.max_retries || !brokerTopic entry.msg.topic

variable {cfg : Config} {s t : State} {a : Action} {as : List Action} {file : Bytes}
  {order : List Message} {ms ms' : List Message} {m : Message}

/-! ## Kinds of copies -/

/-- More messages from outside leave a copy what it is. -/
theorem Kind.mono (h : Kind ms m) (hsub : ms ⊆ ms') : Kind ms' m := by
  cases h with
  | client m₀ hm₀ hm => exact .client m₀ (hsub hm₀) hm
  | letter m₀ hm₀ htopic hm => exact .letter m₀ (hsub hm₀) htopic hm
  | audit htopic => exact .audit htopic

/-- One more failure leaves a copy what it is. -/
theorem Kind.retry (h : Kind ms m) (n : ℤ) : Kind ms { m with retry_count := n } := by
  cases h with
  | client m₀ hm₀ hm => exact .client m₀ hm₀ (by rw [hm])
  | letter m₀ hm₀ htopic hm => exact .letter m₀ hm₀ htopic (by rw [hm])
  | audit htopic => exact .audit htopic

/-- A copy that is not on a topic of the broker is one of a message from outside. -/
theorem Kind.exists_client (h : Kind ms m) (htopic : brokerTopic m.topic = false) :
    ∃ m₀ ∈ ms, brokerTopic m₀.topic = false ∧ m = { m₀ with retry_count := m.retry_count } := by
  cases h with
  | client m₀ hm₀ hm =>
    have heq : m.topic = m₀.topic := by rw [hm]
    exact ⟨m₀, hm₀, heq ▸ htopic, hm⟩
  | letter m₀ hm₀ htopic₀ hm =>
    have heq : m.topic = dlqPrefix ++ m₀.topic := by rw [hm]; rfl
    rw [heq, brokerTopic_dlqPrefix_append] at htopic
    cases htopic
  | audit hsys =>
    rw [hsys] at htopic
    exact absurd htopic (by decide)

/-- A doubled topic came from outside. -/
theorem Kind.exists_of_doubledTopic (h : Kind ms m) (htopic : doubledTopic m.topic = true) :
    ∃ m₀ ∈ ms, m₀.topic = m.topic := by
  cases h with
  | client m₀ hm₀ hm => exact ⟨m₀, hm₀, by rw [hm]⟩
  | letter m₀ hm₀ htopic₀ hm =>
    have heq : m.topic = dlqPrefix ++ m₀.topic := by rw [hm]; rfl
    rw [heq, doubledTopic_dlqPrefix_append, htopic₀] at htopic
    cases htopic
  | audit hsys =>
    rw [hsys, doubledTopic_sysDlqTopic] at htopic
    cases htopic

/-! ## One step -/

/-- The messages from outside are those before the step, or one more. -/
theorem received_subset (h : s.step cfg a = some t) :
    received order s.trace ⊆ received order t.trace := by
  obtain ⟨new, hnew⟩ := (step_move h).trace_extends
  have htrace : t.trace = s.trace ++ new := hnew.symm
  simp [received, htrace]

/-- The DLQ logger makes audit events. -/
theorem step_auditing (h : s.step cfg a = some t) (hm : t.logger.message = some m) :
    s.logger.message = some m ∨ m.topic = sysDlqTopic := by
  cases step_sound h with
  | audit m₀ sys hpc hsys =>
    obtain rfl : sys = m := by simpa [LoggerPc.message] using hm
    exact .inr (by rw [hsys])
  | auditAppend sys hpc => exact .inl (by simpa [hpc, LoggerPc.message] using hm)
  | logPop | republish | auditPush => simp [LoggerPc.message] at hm
  | nackPush n c msg_id u hn hpc hfail => exact .inl (hfail.logger_eq ▸ hm)
  | disconnectPush n c closing key t hn hpc hkey hfail => exact .inl (hfail.logger_eq ▸ hm)
  | scanPush now deadline key rest entry t hpc hhead hnow hentry hdue hfail =>
    exact .inl (hfail.logger_eq ▸ hm)
  | _ => exact .inl hm

/-- The audit events that the DLQ logger still owes for the letters that it has republished. -/
def LoggerPc.owed : LoggerPc → ℕ
  | .audit _ => 1
  | _ => 0

/-- For every dead letter that is republished an audit event is made. -/
theorem step_owed (h : s.step cfg a = some t)
    (hs : (s.trace.filterMap Event.auditedMsg).length + s.logger.owed =
      (s.trace.filterMap Event.republishedMsg).length) :
    (t.trace.filterMap Event.auditedMsg).length + t.logger.owed =
      (t.trace.filterMap Event.republishedMsg).length := by
  have hfail : ∀ {u v : State} {key : DeliveryKey}, Fails cfg u key v →
      v.trace.filterMap Event.auditedMsg = u.trace.filterMap Event.auditedMsg ∧
      v.trace.filterMap Event.republishedMsg = u.trace.filterMap Event.republishedMsg ∧
      v.logger = u.logger := by
    intro u v key hfail
    cases hfail <;> simp
  cases step_sound h with
  | nackPush n c msg_id u hn hpc hfails | disconnectPush n c closing key u hn hpc hkey hfails =>
    obtain ⟨haudited, hrepublished, hlogger⟩ := hfail hfails
    simpa only [haudited, hrepublished, hlogger] using hs
  | scanPush now deadline key rest entry u hpc hhead hnow hentry hdue hfails =>
    obtain ⟨haudited, hrepublished, hlogger⟩ := hfail hfails
    simpa only [haudited, hrepublished, hlogger] using hs
  | logPop m dlq hpc hpop => simpa [hpc, LoggerPc.owed] using hs
  | republish m main_queue hpc hpush => simpa [hpc, LoggerPc.owed] using hs
  | audit m sys hpc hsys => simpa [hpc, LoggerPc.owed] using hs
  | auditAppend sys hpc => simpa [hpc, LoggerPc.owed] using hs
  | auditPush sys main_queue hpc hpush => simpa [hpc, LoggerPc.owed] using hs
  | publish | ack | heartbeat | publishPush | drop | route | track | sendWritten =>
    simpa only [List.filterMap_append, List.filterMap_cons, List.filterMap_nil, List.append_nil,
      Event.auditedMsg, Event.republishedMsg] using hs
  | _ => exact hs

/-- A message is dead-lettered by the move that fails its delivery. -/
theorem Flow.Move.deadLettered_cases {e : Env} {f g : Flow} (hmove : Flow.Move e f g)
    (hm : .deadLettered m ∈ g.trace) : .deadLettered m ∈ f.trace ∨
      ∃ key entry, e.fails key ∧ f.inFlight key = some entry ∧
        e.max_retries ≤ entry.retry_count ∧ m = entry.dlqMsg := by
  cases hmove with
  | note x hx => exact .inl (mem_of_note hx rfl hm)
  | deadLetter key entry hkey hentry hretry =>
    rcases List.mem_append.mp hm with hm | hm
    · exact .inl hm
    · exact .inr ⟨key, entry, hkey, hentry, hretry, by simpa using hm⟩
  | stay | ack | pop | sendGone | logPop => exact .inl hm
  | _ => exact .inl (by simpa using hm)

/-! ## The invariant -/

/-- The invariant. -/
structure Bounded (cfg : Config) (order : List Message) (s : State) : Prop where
  /-- Deliveries are filed under their message and client. -/
  filed : s.flow.Filed
  /-- The ledger is balanced. -/
  ledger : s.flow.Ledger cfg.max_retries
  /-- Every copy is of one of the three kinds. -/
  copies : s.flow.Forall (Kind (received order s.trace))
  /-- So is every message that is not queued yet. -/
  staged : ∀ m, s.Staged m → Kind (received order s.trace) m
  /-- What is dead-lettered is a message of a client. -/
  letters : ∀ m, .deadLettered m ∈ s.trace →
    ∃ m₀ ∈ clientMessages order s.trace, m = m₀.deadLetter
  /-- Audit events are made for republished letters. -/
  owed : (s.trace.filterMap Event.auditedMsg).length + s.logger.owed =
    (s.trace.filterMap Event.republishedMsg).length

/-- The dead letter of a delivery that may be dead-lettered is that of a message of a client. -/
theorem Bounded.letter (hs : Bounded cfg order s) (hok : buriesClientTopics cfg s a = true)
    {key : DeliveryKey} {entry : InFlight} (hkey : s.failing a = some key)
    (hentry : s.engine.in_flight.lookup key = some entry)
    (hretry : cfg.max_retries ≤ entry.retry_count) :
    ∃ m₀ ∈ received order s.trace, brokerTopic m₀.topic = false ∧ entry.dlqMsg = m₀.deadLetter := by
  have htopic : brokerTopic entry.msg.topic = false := by
    simpa [buriesClientTopics, hkey, hentry, not_lt.mpr hretry] using hok
  obtain ⟨m₀, hm₀, htopic₀, hm⟩ := (hs.copies.inFlight key entry hentry).exists_client htopic
  refine ⟨m₀, hm₀, htopic₀, ?_⟩
  rw [InFlight.dlqMsg, hm]
  rfl

/-- A step that buries messages of clients only keeps the invariant. -/
theorem Bounded.step (hs : Bounded cfg order s) (hok : buriesClientTopics cfg s a = true)
    (h : s.step cfg a = some t) : Bounded cfg order t := by
  have hmove := step_move h
  have hsub : received order s.trace ⊆ received order t.trace := received_subset h
  constructor
  · exact hs.filed.move hmove
  · exact hs.ledger.move hmove
  · have hold := hs.copies.imp fun m hm => hm.mono hsub
    -- A dead letter that is new is one of a message of a client.
    refine hold.move_of_fails hmove
      (fun m hm _ => (hs.staged m (staged_of_offered hm)).mono hsub)
      (fun key entry _ hentry _ _ => (hold.inFlight key entry hentry).retry _)
      fun key entry hkey hentry hretry _ => ?_
    obtain ⟨m₀, hm₀, htopic, hletter⟩ := hs.letter hok hkey hentry hretry
    exact .letter m₀ (hsub hm₀) htopic (by rw [hletter])
  · rintro m (⟨c, hc, hm⟩ | hm)
    · obtain ⟨k, hk⟩ := List.mem_iff_getElem?.mp hc
      cases step_came h hk with
      | same hk => exact (hs.staged m (.inl ⟨c, List.mem_of_getElem? hk, hm⟩)).mono hsub
      | elsewhere hmessage => simp [hmessage] at hm
      | publish m' hpc hm' hfits horigins htrace =>
        obtain rfl : m' = m := by simpa [hpc, ClientPc.message] using hm
        exact .client m' (by simp [received, htrace]) rfl
      | append m' c₀ ha hk hpc₀ hpc =>
        obtain rfl : m' = m := by simpa [hpc, ClientPc.message] using hm
        exact (hs.staged m' (.inl ⟨c₀, List.mem_of_getElem? hk, by rw [hpc₀]; rfl⟩)).mono hsub
      | ack msg_id type payload ha htype c₀ hk hsock hpc => simp [hpc, ClientPc.message] at hm
      | ackEngine msg_id c₀ ha hk hpc₀ hsock hpc => simp [hpc, ClientPc.message] at hm
    · rcases step_auditing h hm with hm | htopic
      · exact (hs.staged m (.inr hm)).mono hsub
      · exact .audit htopic
  · intro m hm
    rcases hmove.deadLettered_cases hm with hm | ⟨key, entry, hkey, hentry, hretry, rfl⟩
    · obtain ⟨m₀, hm₀, hletter⟩ := hs.letters m hm
      obtain ⟨hm₀, htopic⟩ := List.mem_filter.mp hm₀
      exact ⟨m₀, List.mem_filter.mpr ⟨hsub hm₀, htopic⟩, hletter⟩
    · obtain ⟨m₀, hm₀, htopic, hletter⟩ := hs.letter hok hkey hentry hretry
      exact ⟨m₀, List.mem_filter.mpr ⟨hsub hm₀, by simpa using htopic⟩, hletter⟩
  · exact step_owed h hs.owed

/-- After a start the messages of the log are in the queue, and the broker has made none. -/
theorem bounded_of_start (h : State.start cfg file order = some s) : Bounded cfg order s := by
  have hflow := flow_of_start h
  have htrace : s.trace = (State.replayed order).map .enqueued := congrArg Flow.trace hflow
  have hlogger := (wal_of_start h).2.2
  constructor
  · simp [hflow, Flow.Filed]
  · rw [hflow]
    exact Flow.ledger_start _ _
  · rw [hflow]
    refine ⟨fun m hm => ?_, by simp, by simp, by simp, by simp⟩
    exact .client m (List.mem_append_left _ hm) rfl
  · exact fun m hm => absurd hm (not_staged_of_start h m)
  · simp [htrace]
  · rw [htrace, hlogger, Flow.filterMap_enqueued fun _ => rfl, Flow.filterMap_enqueued fun _ => rfl]
    rfl

/-! ## Runs of the broker -/

/-- The broker makes at most two messages for each time that a message of a client is
dead-lettered. -/
theorem Bounded.length_made_le (hs : Bounded cfg order s) {k : ℕ}
    (hk : ∀ m₀ ∈ clientMessages order s.trace,
      (s.trace.filterMap Event.deadLetteredMsg).countP (fun m => m.origin = m₀.origin) ≤ k) :
    (made s.trace).length ≤ 2 * k * (clientMessages order s.trace).length := by
  have hdead : (s.trace.filterMap Event.deadLetteredMsg).length ≤
      k * (clientMessages order s.trace).length := by
    refine Counting.length_le_mul (fun m₀ m => m.origin = m₀.origin) (fun m hm => ?_) hk
    obtain ⟨x, hx, hxm⟩ := List.mem_filterMap.mp hm
    obtain rfl := Event.eq_deadLettered hxm
    obtain ⟨m₀, hm₀, rfl⟩ := hs.letters m hx
    exact ⟨m₀, hm₀, by simp [Message.deadLetter]⟩
  have hrepublished := congrArg List.length hs.ledger.republished
  have howed := hs.owed
  simp only [State.flow, List.length_append] at hrepublished
  calc (made s.trace).length
      = (s.trace.filterMap Event.deadLetteredMsg).length +
        (s.trace.filterMap Event.auditedMsg).length := List.length_append
    _ ≤ (s.trace.filterMap Event.deadLetteredMsg).length +
        (s.trace.filterMap Event.deadLetteredMsg).length := by omega
    _ ≤ k * (clientMessages order s.trace).length + k * (clientMessages order s.trace).length :=
        Nat.add_le_add hdead hdead
    _ = 2 * k * (clientMessages order s.trace).length := by ring

/-- The broker's own messages come to an end: in every run, on any log and with any subscriptions,
in which no delivery on a topic of the broker uses up its retries, every dead letter is one of a
message that a client published, the broker makes at most `2 * k` messages for each of those when
none is dead-lettered more than `k` times, and a topic with a doubled prefix is one that came from
outside. -/
theorem dead_lettering_terminates (hstart : State.start cfg file order = some s)
    (hrun : Run (State.step cfg) (buriesClientTopics cfg · ·) s as t) :
    (∀ m, .deadLettered m ∈ t.trace → ∃ m₀ ∈ clientMessages order t.trace, m = m₀.deadLetter) ∧
      (∀ k, (∀ m₀ ∈ clientMessages order t.trace,
          (t.trace.filterMap Event.deadLetteredMsg).countP (fun m => m.origin = m₀.origin) ≤ k) →
        (made t.trace).length ≤ 2 * k * (clientMessages order t.trace).length) ∧
      ∀ m, t.Staged m ∨ m ∈ t.held → doubledTopic m.topic = true →
        ∃ m₀ ∈ received order t.trace, m₀.topic = m.topic := by
  have hinv : Bounded cfg order t :=
    hrun.invariant (fun s a t hs hok h => hs.step hok h) (bounded_of_start hstart)
  refine ⟨hinv.letters, fun k hk => hinv.length_made_le hk, fun m hm htopic => ?_⟩
  rcases hm with hm | hm
  · exact (hinv.staged m hm).exists_of_doubledTopic htopic
  · exact (forall_flow_iff.mp hinv.copies m hm).exists_of_doubledTopic htopic

/-- A client subscribes to every topic, and another publishes on one. -/
def wildcardSubscriber : List Action :=
  [.accept 5, .accept 6, .frame 0 0x02 0 [0, 1, 0x2a, 0, 0], .frame 1 0x01 0 [0, 1, 0x74],
    .client 1, .client 1]

/-- The client is sent the next message, and refuses it. -/
def refuseNext : List Action :=
  [.pop, .route [⟨[0x2a], ascii "__unique_5", 5⟩], .track 0, .send, .frame 0 0x04 1 [], .client 0,
    .client 0]

/-- A message is dead-lettered, its dead letter and its audit event are routed to the client, and
the account of the broker's own messages is kept. -/
theorem dead_lettering_terminates_one_letter :
    ∃ t, Run (State.step ⟨4, 0, 5000⟩) (buriesClientTopics ⟨4, 0, 5000⟩ · ·)
        (State.init ⟨4, 0, 5000⟩) (wildcardSubscriber ++ refuseNext ++
          [.log, .log, .log, .log, .log, .pop, .route [⟨[0x2a], ascii "__unique_5", 5⟩], .track 0,
            .send]) t ∧
      (made t.trace).length = 2 ∧
      (made t.trace).length ≤ 2 * 1 * (clientMessages [] t.trace).length := by
  obtain ⟨t, ht, hend⟩ := (Option.any_eq_true _ _).mp
    (show (execChecked (State.step ⟨4, 0, 5000⟩) (buriesClientTopics ⟨4, 0, 5000⟩ · ·)
      (State.init ⟨4, 0, 5000⟩) (wildcardSubscriber ++ refuseNext ++
        [.log, .log, .log, .log, .log, .pop, .route [⟨[0x2a], ascii "__unique_5", 5⟩], .track 0,
          .send])).any (fun t => (made t.trace).length = 2 ∧
        (t.trace.filterMap Event.deadLetteredMsg).length = 1) = true by decide)
  obtain ⟨hmade, hdead⟩ := of_decide_eq_true hend
  have hrun := run_of_execChecked ht
  exact ⟨t, hrun, hmade, (dead_lettering_terminates (State.start_nil _) hrun).2.1 1
    fun m₀ _ => List.countP_le_length.trans hdead.le⟩

/-- The client refuses the message and then its dead letter, which is dead-lettered as well. -/
theorem dead_letter_of_dead_letter :
    ∃ t, exec (State.step ⟨4, 3, 5000⟩) (State.init ⟨4, 3, 5000⟩)
        (wildcardSubscriber ++ refuseNext ++ refuseNext ++ refuseNext ++ refuseNext ++
          [.log, .log] ++
          refuseNext ++ refuseNext ++ refuseNext ++ refuseNext) = some t ∧
      .deadLettered ⟨1, ascii "$DLQ.t", [], 0, 0⟩ ∈ t.trace ∧
      .deadLettered ⟨1, ascii "$DLQ.$DLQ.t", [], 0, 0⟩ ∈ t.trace ∧
      ⟨1, ascii "$DLQ.$DLQ.t", [], 0, 0⟩ ∈ t.held ∧
      received [] t.trace = [⟨1, ascii "t", [], 0, 0⟩] := by
  obtain ⟨t, ht, hend⟩ := (Option.any_eq_true _ _).mp
    (show (exec (State.step ⟨4, 3, 5000⟩) (State.init ⟨4, 3, 5000⟩)
      (wildcardSubscriber ++ refuseNext ++ refuseNext ++ refuseNext ++ refuseNext ++ [.log, .log] ++
        refuseNext ++ refuseNext ++ refuseNext ++ refuseNext)).any (fun t =>
        .deadLettered ⟨1, ascii "$DLQ.t", [], 0, 0⟩ ∈ t.trace ∧
        .deadLettered ⟨1, ascii "$DLQ.$DLQ.t", [], 0, 0⟩ ∈ t.trace ∧
        ⟨1, ascii "$DLQ.$DLQ.t", [], 0, 0⟩ ∈ t.held ∧
        received [] t.trace = [⟨1, ascii "t", [], 0, 0⟩]) = true by decide)
  exact ⟨t, ht, of_decide_eq_true hend⟩

end EventQueue.Broker
