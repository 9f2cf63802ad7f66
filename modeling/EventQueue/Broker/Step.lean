import EventQueue.Broker.Main

/-!
# What one step of the broker can do

`Step` lists the effects of a step, guards included, one constructor for each atomic action of a
thread. `step_sound` derives it from the step function once, so that every invariant is a case
analysis on the list and none unfolds the function. `Fails` is the part that `nack`,
`client_disconnected`, and the scanner share: `requeue_or_dlq` on an entry that is then erased.
-/

namespace EventQueue.Broker

open TopicRouter (Target)

/-- The effect of failing the delivery `key`: its entry is erased, and its message is pushed back on
`main_queue` or, its retries used up, on `dlq`. -/
inductive Fails (cfg : Config) (s : State) (key : DeliveryKey) : State → Prop
  /-- There are retries left. -/
  | requeue (entry : InFlight) (main_queue : SafeQueue Message)
      (hentry : s.engine.in_flight.lookup key = some entry)
      (hretry : entry.retry_count < cfg.max_retries)
      (hpush : s.main_queue.push entry.requeueMsg = some main_queue) :
      Fails cfg s key { s with
        main_queue
        engine := { s.engine with in_flight := s.engine.in_flight.erase key }
        trace := s.trace ++ [.failed key entry, .requeued entry.requeueMsg] }
  /-- The retries are used up. -/
  | deadLetter (entry : InFlight) (dlq : SafeQueue Message)
      (hentry : s.engine.in_flight.lookup key = some entry)
      (hretry : cfg.max_retries ≤ entry.retry_count)
      (hpush : s.dlq.push entry.dlqMsg = some dlq) :
      Fails cfg s key { s with
        dlq
        engine := { s.engine with in_flight := s.engine.in_flight.erase key }
        trace := s.trace ++ [.failed key entry, .deadLettered entry.dlqMsg] }

/-- The effects of a step. -/
inductive Step (cfg : Config) (s : State) : Action → State → Prop
  /-- A new connection is registered. -/
  | accept (sock : ClientId) (hfree : ∀ c ∈ s.conns, c.isOpen = true → c.sock ≠ sock) :
      Step cfg s (.accept sock) { s with
        clients := s.clients.insert sock s.conns.length, conns := s.conns ++ [⟨sock, .reading⟩] }
  /-- A frame without effect: an unknown type, or a payload without a topic. -/
  | ignore (n : ℕ) (type : UInt8) (msg_id : UInt64) (payload : Bytes) :
      Step cfg s (.frame n type msg_id payload) s
  /-- A SUBSCRIBE frame. -/
  | subscribe (n : ℕ) (c : Conn) (type : UInt8) (msg_id : UInt64) (payload : Bytes)
      (hn : s.conns[n]? = some c) (hpc : c.pc = .reading)
      (htype : MessageType.ofByte type = some .subscribe)
      (htopic : (decodeSubscribe payload).topic ≠ []) :
      Step cfg s (.frame n type msg_id payload) { s with
        router := s.router.subscribe (decodeSubscribe payload).topic
          (decodeSubscribe payload).group c.sock }
  /-- A PUBLISH frame, which draws an identifier unless the client chose one. -/
  | publish (n : ℕ) (c : Conn) (type : UInt8) (msg_id : UInt64) (payload : Bytes) (m : Message)
      (hn : s.conns[n]? = some c) (hpc : c.pc = .reading) (hlen : payload.length < 2 ^ 32)
      (htype : MessageType.ofByte type = some .publish)
      (hm : m = ⟨if msg_id ≠ 0 then msg_id else s.next_id, (decodePublish payload).topic,
        (decodePublish payload).body, 0, s.origins⟩) :
      Step cfg s (.frame n type msg_id payload) { s with
        next_id := if msg_id ≠ 0 then s.next_id else s.next_id + 1
        origins := s.origins + 1
        conns := goTo s.conns n (.publishAppend m)
        trace := s.trace ++ [.published n m] }
  /-- An ACK frame. -/
  | ack (n : ℕ) (c : Conn) (type : UInt8) (msg_id : UInt64) (payload : Bytes)
      (hn : s.conns[n]? = some c) (hpc : c.pc = .reading)
      (htype : MessageType.ofByte type = some .ack) :
      Step cfg s (.frame n type msg_id payload) { s with
        conns := goTo s.conns n (.ackEngine msg_id)
        trace := s.trace ++ [.acked c.sock msg_id] }
  /-- A NACK frame. -/
  | nack (n : ℕ) (c : Conn) (type : UInt8) (msg_id : UInt64) (payload : Bytes)
      (hn : s.conns[n]? = some c) (hpc : c.pc = .reading) :
      Step cfg s (.frame n type msg_id payload) { s with
        conns := goTo s.conns n (.nackLock msg_id) }
  /-- A HEARTBEAT frame, which is answered. -/
  | heartbeat (n : ℕ) (c : Conn) (type : UInt8) (msg_id : UInt64) (payload : Bytes) :
      Step cfg s (.frame n type msg_id payload) { s with
        trace := s.trace ++ [.heartbeat c.sock] }
  /-- An ERROR_RESP frame that a client sent. -/
  | errorResp (n : ℕ) (c : Conn) (type : UInt8) (msg_id : UInt64) (payload : Bytes)
      (hn : s.conns[n]? = some c) (hpc : c.pc = .reading)
      (htype : MessageType.ofByte type = some .errorResp) :
      Step cfg s (.frame n type msg_id payload) { s with
        conns := goTo s.conns n (.unsubscribe false) }
  /-- A thread leaves its read loop. -/
  | hangup (n : ℕ) (c : Conn) (hn : s.conns[n]? = some c) (hpc : c.pc = .reading) :
      Step cfg s (.hangup n) { s with conns := goTo s.conns n .eraseClient }
  /-- `wal.append` of a published message. -/
  | publishAppend (n : ℕ) (c : Conn) (m : Message) (hn : s.conns[n]? = some c)
      (hpc : c.pc = .publishAppend m) :
      Step cfg s (.client n) { s with
        wal := s.wal.add (.ofMessage m), conns := goTo s.conns n (.publishPush m) }
  /-- `main_queue.push` of a published message. -/
  | publishPush (n : ℕ) (c : Conn) (m : Message) (main_queue : SafeQueue Message)
      (hn : s.conns[n]? = some c) (hpc : c.pc = .publishPush m)
      (hpush : s.main_queue.push m = some main_queue) :
      Step cfg s (.client n) { s with
        main_queue, conns := goTo s.conns n .reading, trace := s.trace ++ [.enqueued m] }
  /-- `ack_engine.ack`. -/
  | ackEngine (n : ℕ) (c : Conn) (msg_id : UInt64) (hn : s.conns[n]? = some c)
      (hpc : c.pc = .ackEngine msg_id) (hmu : s.mu = none) :
      Step cfg s (.client n) { s with
        engine := s.engine.ack msg_id c.sock, conns := goTo s.conns n (.ackWal msg_id) }
  /-- `wal.acknowledge`. -/
  | ackWal (n : ℕ) (c : Conn) (msg_id : UInt64) (hn : s.conns[n]? = some c)
      (hpc : c.pc = .ackWal msg_id) :
      Step cfg s (.client n) { s with
        wal := s.wal.add (.ack msg_id), conns := goTo s.conns n .reading }
  /-- `nack` finds no entry. -/
  | nackNone (n : ℕ) (c : Conn) (msg_id : UInt64) (hn : s.conns[n]? = some c)
      (hpc : c.pc = .nackLock msg_id) (hmu : s.mu = none)
      (hentry : s.engine.in_flight.lookup (msg_id, c.sock) = none) :
      Step cfg s (.client n) { s with conns := goTo s.conns n .reading }
  /-- `nack` takes `mu_` and finds an entry. -/
  | nackLock (n : ℕ) (c : Conn) (msg_id : UInt64) (entry : InFlight) (hn : s.conns[n]? = some c)
      (hpc : c.pc = .nackLock msg_id) (hmu : s.mu = none)
      (hentry : s.engine.in_flight.lookup (msg_id, c.sock) = some entry) :
      Step cfg s (.client n) { s with
        mu := some (.conn n), conns := goTo s.conns n (.nackPush msg_id) }
  /-- `nack` fails the delivery and releases `mu_`. -/
  | nackPush (n : ℕ) (c : Conn) (msg_id : UInt64) (u : State) (hn : s.conns[n]? = some c)
      (hpc : c.pc = .nackPush msg_id) (hfail : Fails cfg s (msg_id, c.sock) u) :
      Step cfg s (.client n) { u with mu := none, conns := goTo u.conns n .reading }
  /-- `clients_.erase`. -/
  | eraseClient (n : ℕ) (c : Conn) (hn : s.conns[n]? = some c) (hpc : c.pc = .eraseClient) :
      Step cfg s (.client n) { s with
        clients := s.clients.erase c.sock, conns := goTo s.conns n (.unsubscribe true) }
  /-- `router.unsubscribe`. -/
  | unsubscribe (n : ℕ) (c : Conn) (closing : Bool) (hn : s.conns[n]? = some c)
      (hpc : c.pc = .unsubscribe closing) :
      Step cfg s (.client n) { s with
        router := s.router.unsubscribe c.sock, conns := goTo s.conns n (.disconnectLock closing) }
  /-- `client_disconnected` takes `mu_`. -/
  | disconnectLock (n : ℕ) (c : Conn) (closing : Bool) (hn : s.conns[n]? = some c)
      (hpc : c.pc = .disconnectLock closing) (hmu : s.mu = none) :
      Step cfg s (.client n) { s with
        mu := some (.conn n), conns := goTo s.conns n (.disconnectLoop closing) }
  /-- `client_disconnected` fails one of the client's deliveries. -/
  | disconnectPush (n : ℕ) (c : Conn) (closing : Bool) (key : DeliveryKey) (t : State)
      (hn : s.conns[n]? = some c) (hpc : c.pc = .disconnectLoop closing)
      (hkey : s.engine.nextOf c.sock = some key) (hfail : Fails cfg s key t) :
      Step cfg s (.client n) t
  /-- `client_disconnected` releases `mu_`. -/
  | disconnectDone (n : ℕ) (c : Conn) (closing : Bool) (hn : s.conns[n]? = some c)
      (hpc : c.pc = .disconnectLoop closing) (hkey : s.engine.nextOf c.sock = none) :
      Step cfg s (.client n) { s with
        mu := none, conns := goTo s.conns n (if closing then .closed else .reading) }
  /-- The dispatcher pops a message. -/
  | pop (m : Message) (main_queue : SafeQueue Message) (hpc : s.dispatcher = .idle)
      (hpop : s.main_queue.tryPop = some (m, main_queue)) :
      Step cfg s .pop { s with main_queue, dispatcher := .popped m }
  /-- The dispatcher drops a message without a target. -/
  | drop (m : Message) (hpc : s.dispatcher = .popped m) (hnone : s.router.targets m.topic = []) :
      Step cfg s (.route []) { s with
        router := s.router.advance m.topic
        dispatcher := .idle
        trace := s.trace ++ [.dropped m] }
  /-- The dispatcher routes a message. -/
  | route (m : Message) (t : Target) (todo : List Target) (hpc : s.dispatcher = .popped m)
      (hperm : (t :: todo).Perm (s.router.targets m.topic)) :
      Step cfg s (.route (t :: todo)) { s with
        router := s.router.advance m.topic
        dispatcher := .tracking m t todo
        trace := s.trace ++ [.routed m (t :: todo)] }
  /-- `ack_engine.track`. -/
  | track (now : TimePoint) (m : Message) (t : Target) (todo : List Target)
      (hpc : s.dispatcher = .tracking m t todo) (hmu : s.mu = none) :
      Step cfg s (.track now) { s with
        engine := s.engine.track m t.client_id now cfg.ack_timeout
        dispatcher := .sending m t todo
        trace := s.trace ++ [.dispatched m t] }
  /-- `send_to` writes the frame. -/
  | sendWritten (m : Message) (t : Target) (todo : List Target) (n : ℕ)
      (hpc : s.dispatcher = .sending m t todo) (hn : s.clients.lookup t.client_id = some n) :
      Step cfg s .send { s with
        dispatcher := DispatcherPc.next m todo, trace := s.trace ++ [.written n m] }
  /-- `send_to` finds no connection. -/
  | sendGone (m : Message) (t : Target) (todo : List Target)
      (hpc : s.dispatcher = .sending m t todo) (hn : s.clients.lookup t.client_id = none) :
      Step cfg s .send { s with dispatcher := DispatcherPc.next m todo }
  /-- The scanner reads the clock. -/
  | wake (now : TimePoint) (hpc : s.scanner = .sleeping) :
      Step cfg s (.wake now) { s with scanner := .locking now }
  /-- The scanner takes `mu_`. -/
  | scanLock (now : TimePoint) (hpc : s.scanner = .locking now) (hmu : s.mu = none) :
      Step cfg s .scan { s with mu := some .scanner, scanner := .scanning now }
  /-- The scanner finds no deadline that has passed, and releases `mu_`. -/
  | scanDone (now : TimePoint) (hpc : s.scanner = .scanning now)
      (hnone : ∀ d ∈ s.engine.deadlines.head?, now < d.1) :
      Step cfg s .scan { s with mu := none, scanner := .sleeping }
  /-- The scanner skips the deadline of a delivery that is gone or was tracked again. -/
  | scanSkip (now : TimePoint) (deadline : TimePoint) (key : DeliveryKey)
      (rest : List DeadlineEntry) (hpc : s.scanner = .scanning now)
      (hhead : s.engine.deadlines = (deadline, key) :: rest) (hnow : deadline ≤ now)
      (hentry : ∀ entry ∈ s.engine.in_flight.lookup key, deadline < entry.deadline) :
      Step cfg s .scan { s with engine := { s.engine with deadlines := rest } }
  /-- The scanner fails a delivery whose deadline has passed. -/
  | scanPush (now : TimePoint) (deadline : TimePoint) (key : DeliveryKey)
      (rest : List DeadlineEntry) (entry : InFlight) (t : State)
      (hpc : s.scanner = .scanning now)
      (hhead : s.engine.deadlines = (deadline, key) :: rest) (hnow : deadline ≤ now)
      (hentry : s.engine.in_flight.lookup key = some entry) (hdue : entry.deadline ≤ deadline)
      (hfail : Fails cfg { s with engine := { s.engine with deadlines := rest } } key t) :
      Step cfg s .scan t
  /-- The DLQ logger pops a dead letter. -/
  | logPop (m : Message) (dlq : SafeQueue Message) (hpc : s.logger = .idle)
      (hpop : s.dlq.tryPop = some (m, dlq)) :
      Step cfg s .log { s with dlq, logger := .republish m }
  /-- The DLQ logger pushes it on `main_queue`. -/
  | republish (m : Message) (main_queue : SafeQueue Message) (hpc : s.logger = .republish m)
      (hpush : s.main_queue.push m = some main_queue) :
      Step cfg s .log { s with
        main_queue, logger := .audit m, trace := s.trace ++ [.republished m] }
  /-- The DLQ logger makes the audit event. -/
  | audit (m sys : Message) (hpc : s.logger = .audit m)
      (hsys : sys = ⟨s.next_id, sysDlqTopic, State.auditBody m, 0, s.origins⟩) :
      Step cfg s .log { s with
        next_id := s.next_id + 1
        origins := s.origins + 1
        logger := .auditAppend sys
        trace := s.trace ++ [.audited sys] }
  /-- `wal.append` of the audit event. -/
  | auditAppend (sys : Message) (hpc : s.logger = .auditAppend sys) :
      Step cfg s .log { s with wal := s.wal.add (.ofMessage sys), logger := .auditPush sys }
  /-- `main_queue.push` of the audit event. -/
  | auditPush (sys : Message) (main_queue : SafeQueue Message) (hpc : s.logger = .auditPush sys)
      (hpush : s.main_queue.push sys = some main_queue) :
      Step cfg s .log { s with
        main_queue, logger := .idle, trace := s.trace ++ [.enqueued sys] }
  /-- A step of the flush thread. -/
  | flush (wal : WalWriter) (hwal : s.wal.flushStep = some wal) :
      Step cfg s .flush { s with wal }
  /-- The log is asked to stop. -/
  | stopWal : Step cfg s .stopWal { s with wal := s.wal.requestStop }

variable {cfg : Config} {s t : State} {a : Action}

/-- `fail` has the effect that `Fails` describes. -/
theorem fails_of_fail {key : DeliveryKey} (h : s.fail cfg key = some t) : Fails cfg s key t := by
  unfold State.fail at h
  split at h
  · cases h
  · rename_i entry hentry
    by_cases hretry : cfg.max_retries ≤ entry.retry_count
    · simp only [AckEngine.requeueOrDlq, if_pos hretry] at h
      obtain ⟨dlq, hpush, rfl⟩ := Option.map_eq_some_iff.mp h
      exact .deadLetter entry dlq hentry hretry hpush
    · simp only [AckEngine.requeueOrDlq, if_neg hretry] at h
      obtain ⟨main_queue, hpush, rfl⟩ := Option.map_eq_some_iff.mp h
      exact .requeue entry main_queue hentry (not_le.mp hretry) hpush

/-- What a frame does. -/
theorem step_frame {n : ℕ} {c : Conn} {type : UInt8} {msg_id : UInt64} {payload : Bytes}
    (hn : s.conns[n]? = some c) (hpc : c.pc = .reading) (hlen : payload.length < 2 ^ 32) :
    Step cfg s (.frame n type msg_id payload) (s.onFrame n c type msg_id payload) := by
  unfold State.onFrame
  split
  · rename_i htype
    dsimp only
    split_ifs with htopic
    · -- A SUBSCRIBE without a topic.
      exact .ignore ..
    · exact .subscribe n c type msg_id payload hn hpc htype (by simpa using htopic)
  · rename_i htype
    dsimp only
    split_ifs
    · exact .ignore ..
    · simpa [*] using Step.publish n c type msg_id payload _ hn hpc hlen htype rfl
    · simpa [*] using Step.publish n c type msg_id payload _ hn hpc hlen htype rfl
  · rename_i htype
    exact .ack n c type msg_id payload hn hpc htype
  · exact .nack n c type msg_id payload hn hpc
  · exact .heartbeat n c type msg_id payload
  · rename_i htype
    exact .errorResp n c type msg_id payload hn hpc htype
  · exact .ignore ..
  · exact .ignore ..

/-- What the thread of a connection does next. -/
theorem step_client {n : ℕ} {c : Conn} (hn : s.conns[n]? = some c)
    (h : s.clientStep cfg n c = some t) : Step cfg s (.client n) t := by
  unfold State.clientStep at h
  split at h
  · cases h
  · cases h
  · rename_i m hpc
    obtain rfl := Option.some.inj h
    exact .publishAppend n c m hn hpc
  · rename_i m hpc
    obtain ⟨main_queue, hpush, rfl⟩ := Option.map_eq_some_iff.mp h
    exact .publishPush n c m main_queue hn hpc hpush
  · rename_i msg_id hpc
    split_ifs at h with hmu
    obtain rfl := Option.some.inj h
    exact .ackEngine n c msg_id hn hpc (by simpa using hmu)
  · rename_i msg_id hpc
    obtain rfl := Option.some.inj h
    exact .ackWal n c msg_id hn hpc
  · rename_i msg_id hpc
    -- `nack` finds the delivery, or has nothing to do.
    split_ifs at h with hmu hentry
    · obtain rfl := Option.some.inj h
      exact .nackNone n c msg_id hn hpc (by simpa using hmu) (by simpa using hentry)
    · obtain rfl := Option.some.inj h
      obtain ⟨entry, hentry⟩ := Option.ne_none_iff_exists'.mp (by simpa using hentry)
      exact .nackLock n c msg_id entry hn hpc (by simpa using hmu) hentry
  · rename_i msg_id hpc
    obtain ⟨u, hu, rfl⟩ := Option.map_eq_some_iff.mp h
    exact .nackPush n c msg_id u hn hpc (fails_of_fail hu)
  · rename_i hpc
    obtain rfl := Option.some.inj h
    exact .eraseClient n c hn hpc
  · rename_i closing hpc
    obtain rfl := Option.some.inj h
    exact .unsubscribe n c closing hn hpc
  · rename_i closing hpc
    split_ifs at h with hmu
    obtain rfl := Option.some.inj h
    exact .disconnectLock n c closing hn hpc (by simpa using hmu)
  · rename_i closing hpc
    split at h
    · rename_i key hkey
      exact .disconnectPush n c closing key t hn hpc hkey (fails_of_fail h)
    · rename_i hkey
      obtain rfl := Option.some.inj h
      exact .disconnectDone n c closing hn hpc hkey

/-- What the scanner does next. -/
theorem step_scan (h : s.scanStep cfg = some t) : Step cfg s .scan t := by
  unfold State.scanStep at h
  split at h
  · cases h
  · rename_i now hpc
    split_ifs at h with hmu
    obtain rfl := Option.some.inj h
    exact .scanLock now hpc (by simpa using hmu)
  · rename_i now hpc
    split at h
    · rename_i hnil
      obtain rfl := Option.some.inj h
      exact .scanDone now hpc (by simp [hnil])
    · rename_i deadline key rest hhead
      split_ifs at h with hnow
      · obtain rfl := Option.some.inj h
        exact .scanDone now hpc (by simpa [hhead] using hnow)
      · dsimp only at h
        split at h
        · -- The delivery is gone, or tracked again with a later deadline.
          rename_i hentry
          obtain rfl := Option.some.inj h
          exact .scanSkip now deadline key rest hpc hhead (not_lt.mp hnow) (by simp [hentry])
        · rename_i entry hentry
          split_ifs at h with hdue
          · obtain rfl := Option.some.inj h
            exact .scanSkip now deadline key rest hpc hhead (not_lt.mp hnow)
              (by simpa [hentry] using hdue)
          · exact .scanPush now deadline key rest entry t hpc hhead (not_lt.mp hnow) hentry
              (not_lt.mp hdue) (fails_of_fail h)

/-- What the DLQ logger does next. -/
theorem step_log (h : s.logStep = some t) : Step cfg s .log t := by
  unfold State.logStep at h
  split at h
  · rename_i hpc
    obtain ⟨⟨m, dlq⟩, hpop, rfl⟩ := Option.map_eq_some_iff.mp h
    exact .logPop m dlq hpc hpop
  · rename_i m hpc
    obtain ⟨main_queue, hpush, rfl⟩ := Option.map_eq_some_iff.mp h
    exact .republish m main_queue hpc hpush
  · rename_i m hpc
    obtain rfl := Option.some.inj h
    exact .audit m _ hpc rfl
  · rename_i sys hpc
    obtain rfl := Option.some.inj h
    exact .auditAppend sys hpc
  · rename_i sys hpc
    obtain ⟨main_queue, hpush, rfl⟩ := Option.map_eq_some_iff.mp h
    exact .auditPush sys main_queue hpc hpush

/-- Every step of the broker has one of the listed effects. -/
theorem step_sound (h : s.step cfg a = some t) : Step cfg s a t := by
  cases a with
  | accept sock =>
    simp only [State.step] at h
    split_ifs at h with hopen
    obtain rfl := Option.some.inj h
    refine .accept sock fun c hc hcopen heq => hopen ?_
    simpa [List.any_eq_true] using ⟨c, hc, hcopen, heq⟩
  | frame n type msg_id payload =>
    simp only [State.step] at h
    split at h
    · cases h
    · rename_i c hn
      split_ifs at h with hc
      obtain rfl := Option.some.inj h
      exact step_frame hn hc.1 hc.2
  | hangup n =>
    simp only [State.step] at h
    split at h
    · cases h
    · rename_i c hn
      split_ifs at h with hc
      obtain rfl := Option.some.inj h
      exact .hangup n c hn hc
  | client n =>
    obtain ⟨c, hn, h⟩ := Option.bind_eq_some_iff.mp h
    exact step_client hn h
  | pop =>
    simp only [State.step] at h
    split at h
    · rename_i hpc
      obtain ⟨⟨m, main_queue⟩, hpop, rfl⟩ := Option.map_eq_some_iff.mp h
      exact .pop m main_queue hpc hpop
    · cases h
  | route targets =>
    simp only [State.step] at h
    split at h
    · rename_i m hpc
      by_cases hperm : targets.Perm (s.router.route m).1
      · rw [if_pos hperm] at h
        obtain rfl := Option.some.inj h
        cases targets with
        | nil => exact .drop m hpc (List.nil_perm.mp hperm)
        | cons t todo => exact .route m t todo hpc hperm
      · simp [hperm] at h
    · cases h
  | track now =>
    simp only [State.step] at h
    split at h
    · rename_i m t todo hpc
      split_ifs at h with hmu
      obtain rfl := Option.some.inj h
      exact .track now m t todo hpc (by simpa using hmu)
    · cases h
  | send =>
    simp only [State.step] at h
    split at h
    · rename_i m t todo hpc
      obtain rfl := Option.some.inj h
      cases hn : s.clients.lookup t.client_id with
      | none => simpa [hn] using Step.sendGone m t todo hpc hn
      | some n => simpa [hn] using Step.sendWritten m t todo n hpc hn
    · cases h
  | wake now =>
    simp only [State.step] at h
    split at h
    · rename_i hpc
      obtain rfl := Option.some.inj h
      exact .wake now hpc
    · cases h
  | scan => exact step_scan h
  | log => exact step_log h
  | flush =>
    obtain ⟨wal, hwal, rfl⟩ := Option.map_eq_some_iff.mp h
    exact .flush wal hwal
  | stopWal =>
    obtain rfl := Option.some.inj h
    exact .stopWal

/-! ## Where a thread comes from -/

/-- The message that the thread of a connection is publishing. -/
def ClientPc.message : ClientPc → Option Message
  | .publishAppend m | .publishPush m => some m
  | _ => none

/-- The identifier that the thread of a connection is acknowledging. -/
def ClientPc.acking : ClientPc → Option UInt64
  | .ackEngine msg_id | .ackWal msg_id => some msg_id
  | _ => none

/-- A connection after one of them has moved on is that one, or is as it was. -/
theorem getElem?_goTo {conns : List Conn} {n k : ℕ} {pc : ClientPc} {c : Conn}
    (h : (goTo conns n pc)[k]? = some c) :
    (k = n ∧ ∃ c₀, conns[n]? = some c₀ ∧ c = { c₀ with pc }) ∨ k ≠ n ∧ conns[k]? = some c := by
  rw [goTo, List.getElem?_modify] at h
  obtain ⟨c₀, hc₀, rfl⟩ := Option.map_eq_some_iff.mp h
  by_cases hk : n = k
  · subst hk
    exact .inl ⟨rfl, c₀, hc₀, by simp⟩
  · exact .inr ⟨fun heq => hk heq.symm, by simpa [hk] using hc₀⟩

/-- How the `k`-th connection can have come to stand where it does after a step. -/
inductive Came (s : State) (a : Action) (t : State) (k : ℕ) (c : Conn) : Prop
  /-- It stood there. -/
  | same (hk : s.conns[k]? = some c)
  /-- It is neither publishing nor acknowledging. -/
  | elsewhere (hmessage : c.pc.message = none) (hacking : c.pc.acking = none)
  /-- It has accepted a PUBLISH frame. -/
  | publish (m : Message) (hpc : c.pc = .publishAppend m)
      (hm : m.retry_count = 0 ∧ m.origin = s.origins) (hfits : (WalRecord.ofMessage m).Fits)
      (horigins : t.origins = s.origins + 1) (htrace : t.trace = s.trace ++ [.published k m])
  /-- It has logged its message. -/
  | append (m : Message) (c₀ : Conn) (ha : a = .client k) (hk : s.conns[k]? = some c₀)
      (hpc₀ : c₀.pc = .publishAppend m) (hpc : c.pc = .publishPush m)
  /-- It has accepted an ACK frame. -/
  | ack (msg_id : UInt64) (type : UInt8) (payload : Bytes) (ha : a = .frame k type msg_id payload)
      (htype : MessageType.ofByte type = some .ack) (c₀ : Conn) (hk : s.conns[k]? = some c₀)
      (hsock : c₀.sock = c.sock) (hpc : c.pc = .ackEngine msg_id)
      (htrace : t.trace = s.trace ++ [.acked c.sock msg_id])
  /-- It has told the engine. -/
  | ackEngine (msg_id : UInt64) (c₀ : Conn) (ha : a = .client k) (hk : s.conns[k]? = some c₀)
      (hpc₀ : c₀.pc = .ackEngine msg_id) (hsock : c₀.sock = c.sock) (hpc : c.pc = .ackWal msg_id)

/-- Failing a delivery leaves the connections alone. -/
theorem Fails.conns_eq {key : DeliveryKey} (h : Fails cfg s key t) : t.conns = s.conns := by
  cases h <;> rfl

/-- A thread that moved to a place where it neither publishes nor acknowledges. -/
theorem came_of_goTo {n k : ℕ} {c : Conn} {pc : ClientPc}
    (h : (goTo s.conns n pc)[k]? = some c) (hmessage : pc.message = none)
    (hacking : pc.acking = none) : Came s a t k c := by
  rcases getElem?_goTo h with ⟨-, c₀, -, rfl⟩ | ⟨-, hk⟩
  · exact .elsewhere hmessage hacking
  · exact .same hk

/-- Every connection has come to where it stands after a step in one of these ways. -/
theorem step_came (h : s.step cfg a = some t) {k : ℕ} {c : Conn} (hk : t.conns[k]? = some c) :
    Came s a t k c := by
  cases step_sound h with
  | accept sock hfree =>
    -- A new connection is reading, and the others are where they were.
    rw [List.getElem?_append] at hk
    split_ifs at hk with hlt
    · exact .same hk
    · obtain rfl : c = ⟨sock, .reading⟩ := by simpa using List.mem_of_getElem? hk
      exact .elsewhere rfl rfl
  | publish n c₀ type msg_id payload m hn hpc hlen htype hm =>
    rcases getElem?_goTo hk with ⟨rfl, c₀, -, rfl⟩ | ⟨-, hk⟩
    · refine .publish m rfl (by simp [hm]) ?_ rfl rfl
      rw [hm]
      -- What comes in a frame fits a record.
      exact ⟨length_decodePublish_topic_lt payload,
        (length_decodePublish_body_le payload).trans_lt hlen⟩
    · exact .same hk
  | ack n c₀ type msg_id payload hn hpc htype =>
    rcases getElem?_goTo hk with ⟨rfl, c₁, hc₁, rfl⟩ | ⟨-, hk⟩
    · obtain rfl := Option.some.inj (hn.symm.trans hc₁)
      exact .ack msg_id type payload rfl htype c₀ hn rfl rfl rfl
    · exact .same hk
  | publishAppend n c₀ m hn hpc =>
    rcases getElem?_goTo hk with ⟨rfl, c₁, hc₁, rfl⟩ | ⟨-, hk⟩
    · exact .append m c₀ rfl hn hpc rfl
    · exact .same hk
  | ackEngine n c₀ msg_id hn hpc hmu =>
    rcases getElem?_goTo hk with ⟨rfl, c₁, hc₁, rfl⟩ | ⟨-, hk⟩
    · obtain rfl := Option.some.inj (hn.symm.trans hc₁)
      exact .ackEngine msg_id c₀ rfl hn hpc rfl rfl
    · exact .same hk
  | nack | errorResp | hangup | publishPush | ackWal | nackNone | nackLock | eraseClient
  | unsubscribe | disconnectLock => exact came_of_goTo hk rfl rfl
  | nackPush n c₀ msg_id u hn hpc hfail =>
    rw [hfail.conns_eq] at hk
    exact came_of_goTo hk rfl rfl
  | disconnectPush n c₀ closing key t hn hpc hkey hfail => exact .same (hfail.conns_eq ▸ hk)
  | disconnectDone n c₀ closing =>
    cases closing with
    | false => exact came_of_goTo hk rfl rfl
    | true => exact came_of_goTo hk rfl rfl
  | scanPush now deadline key rest entry t hpc hhead hnow hentry hdue hfail =>
    exact .same (hfail.conns_eq ▸ hk)
  | ignore | subscribe | heartbeat | pop | drop | route | track | sendWritten | sendGone | wake
  | scanLock | scanDone | scanSkip | logPop | republish | audit | auditAppend | auditPush | flush
  | stopWal => exact .same hk

/-- The audit event that the DLQ logger is publishing. -/
def LoggerPc.message : LoggerPc → Option Message
  | .auditAppend sys | .auditPush sys => some sys
  | _ => none

/-- A thread has made the message and has not pushed it on `main_queue` yet. -/
def State.Staged (s : State) (m : Message) : Prop :=
  (∃ c ∈ s.conns, c.pc.message = some m) ∨ s.logger.message = some m

/-- Failing a delivery leaves the DLQ logger alone. -/
theorem Fails.logger_eq {key : DeliveryKey} (h : Fails cfg s key t) : t.logger = s.logger := by
  cases h <;> rfl

/-- The DLQ logger's audit event was there, or is new. -/
theorem step_logger (h : s.step cfg a = some t) {m : Message} (hm : t.logger.message = some m) :
    s.logger.message = some m ∨ m.retry_count = 0 ∧ m.origin = s.origins ∧
      t.origins = s.origins + 1 ∧ t.trace = s.trace ++ [.audited m] := by
  cases step_sound h with
  | audit m₀ sys hpc hsys =>
    obtain rfl : sys = m := by simpa [LoggerPc.message] using hm
    exact .inr (by simp [hsys])
  | auditAppend sys hpc => exact .inl (by simpa [hpc, LoggerPc.message] using hm)
  | logPop | republish | auditPush => simp [LoggerPc.message] at hm
  | nackPush n c msg_id u hn hpc hfail => exact .inl (hfail.logger_eq ▸ hm)
  | disconnectPush n c closing key t hn hpc hkey hfail => exact .inl (hfail.logger_eq ▸ hm)
  | scanPush now deadline key rest entry t hpc hhead hnow hentry hdue hfail =>
    exact .inl (hfail.logger_eq ▸ hm)
  | _ => exact .inl hm

/-- A message that is staged after a step was staged, or is new. -/
theorem step_staged (h : s.step cfg a = some t) {m : Message} (hm : t.Staged m) :
    s.Staged m ∨ m.retry_count = 0 ∧ m.origin = s.origins ∧ t.origins = s.origins + 1 := by
  rcases hm with ⟨c, hc, hm⟩ | hm
  · obtain ⟨k, hk⟩ := List.mem_iff_getElem?.mp hc
    cases step_came h hk with
    | same hk => exact .inl (.inl ⟨c, List.mem_of_getElem? hk, hm⟩)
    | elsewhere hmessage => simp [hmessage] at hm
    | publish m' hpc hm' hfits horigins =>
      obtain rfl : m' = m := by simpa [hpc, ClientPc.message] using hm
      exact .inr ⟨hm'.1, hm'.2, horigins⟩
    | append m' c₀ ha hk hpc₀ hpc =>
      obtain rfl : m' = m := by simpa [hpc, ClientPc.message] using hm
      exact .inl (.inl ⟨c₀, List.mem_of_getElem? hk, by simp [hpc₀, ClientPc.message]⟩)
    | ack msg_id type payload ha htype c₀ hk hsock hpc => simp [hpc, ClientPc.message] at hm
    | ackEngine msg_id c₀ ha hk hpc₀ hsock hpc => simp [hpc, ClientPc.message] at hm
  · rcases step_logger h hm with hm | ⟨hretry, horigin, horigins, -⟩
    · exact .inl (.inr hm)
    · exact .inr ⟨hretry, horigin, horigins⟩

/-- The connection that has moved on stands where it went, and the others where they stood. -/
theorem getElem?_goTo_of_ne {conns : List Conn} {n k : ℕ} {pc : ClientPc} (h : n ≠ k) :
    (goTo conns n pc)[k]? = conns[k]? :=
  List.getElem?_modify_ne _ _ h

theorem getElem?_goTo_self {conns : List Conn} {n : ℕ} {c : Conn} (pc : ClientPc)
    (h : conns[n]? = some c) : (goTo conns n pc)[n]? = some { c with pc } := by
  simp [goTo, h]

/-- A thread that is in a handler moves on by its own action only. -/
theorem step_conns_of_ne (h : s.step cfg a = some t) {k : ℕ} {c : Conn}
    (hk : s.conns[k]? = some c) (hpc : c.pc ≠ .reading) (ha : a ≠ .client k) :
    t.conns[k]? = some c := by
  -- A thread that was reading, or whose action it is, is another one.
  have hother : ∀ {n : ℕ} {c₀ : Conn} (pc : ClientPc), s.conns[n]? = some c₀ → c₀.pc = .reading →
      (goTo s.conns n pc)[k]? = some c := by
    intro n c₀ pc hn hreading
    have hne : n ≠ k := by
      rintro rfl
      obtain rfl := Option.some.inj (hn.symm.trans hk)
      exact hpc hreading
    rw [getElem?_goTo_of_ne hne, hk]
  have hclient : ∀ {n : ℕ} (pc : ClientPc), a = .client n →
      (goTo s.conns n pc)[k]? = some c := by
    rintro n pc rfl
    rw [getElem?_goTo_of_ne (fun heq => ha (by rw [heq])), hk]
  cases step_sound h with
  | accept sock hfree =>
    have hlt : k < s.conns.length := (List.getElem?_eq_some_iff.mp hk).1
    rw [List.getElem?_append_left hlt, hk]
  | publish n c₀ type msg_id payload m hn hreading => exact hother _ hn hreading
  | ack n c₀ type msg_id payload hn hreading => exact hother _ hn hreading
  | nack n c₀ type msg_id payload hn hreading => exact hother _ hn hreading
  | errorResp n c₀ type msg_id payload hn hreading => exact hother _ hn hreading
  | hangup n c₀ hn hreading => exact hother _ hn hreading
  | publishAppend | publishPush | ackEngine | ackWal | nackNone | nackLock | eraseClient
  | unsubscribe | disconnectLock | disconnectDone => exact hclient _ rfl
  | nackPush n c₀ msg_id u hn hpc' hfail =>
    rw [hfail.conns_eq]
    exact hclient _ rfl
  | disconnectPush n c₀ closing key t hn hpc' hkey hfail => rwa [hfail.conns_eq]
  | scanPush now deadline key rest entry t hpc' hhead hnow hentry hdue hfail =>
    rwa [hfail.conns_eq]
  | _ => exact hk

/-- The thread of a connection keeps its message until it has queued it. -/
theorem step_message (h : s.step cfg a = some t) {k : ℕ} {c : Conn} {m : Message}
    (hk : s.conns[k]? = some c) (hm : c.pc.message = some m) :
    .enqueued m ∈ t.trace ∨ ∃ c', t.conns[k]? = some c' ∧ c'.pc.message = some m := by
  by_cases ha : a = .client k
  · subst ha
    cases step_sound h with
    | publishAppend n c₀ m₀ hn hpc =>
      obtain rfl := Option.some.inj (hn.symm.trans hk)
      exact .inr ⟨_, getElem?_goTo_self _ hn, by simpa [hpc, ClientPc.message] using hm⟩
    | publishPush n c₀ m₀ main_queue hn hpc hpush =>
      obtain rfl := Option.some.inj (hn.symm.trans hk)
      obtain rfl : m₀ = m := by simpa [hpc, ClientPc.message] using hm
      exact .inl (by simp)
    | ackEngine n c₀ msg_id hn hpc | ackWal n c₀ msg_id hn hpc | nackNone n c₀ msg_id hn hpc
    | nackLock n c₀ msg_id entry hn hpc | nackPush n c₀ msg_id u hn hpc | eraseClient n c₀ hn hpc
    | unsubscribe n c₀ closing hn hpc | disconnectLock n c₀ closing hn hpc
    | disconnectPush n c₀ closing key t hn hpc | disconnectDone n c₀ closing hn hpc =>
      obtain rfl := Option.some.inj (hn.symm.trans hk)
      simp [hpc, ClientPc.message] at hm
  · have hpc : c.pc ≠ .reading := fun hpc => by simp [hpc, ClientPc.message] at hm
    exact .inr ⟨c, step_conns_of_ne h hk hpc ha, hm⟩

/-- A message that is published by a step gets its origin there, and is in the hands of the
thread. -/
theorem step_published (h : s.step cfg a = some t) {n : ℕ} {m : Message}
    (hm : .published n m ∈ t.trace) :
    .published n m ∈ s.trace ∨
      m.origin = s.origins ∧ ∃ c, t.conns[n]? = some c ∧ c.pc = .publishAppend m := by
  have hfail : ∀ {u v : State} {key : DeliveryKey}, Fails cfg u key v →
      .published n m ∈ v.trace → .published n m ∈ u.trace := by
    intro u v key hfail hm
    cases hfail <;> simpa using hm
  cases step_sound h with
  | publish n' c type msg_id payload m' hn hpc hlen htype hm' =>
    rcases List.mem_append.mp hm with hm | hm
    · exact .inl hm
    · obtain ⟨rfl, rfl⟩ : n = n' ∧ m = m' := by simpa using hm
      exact .inr ⟨by rw [hm'], _, getElem?_goTo_self _ hn, rfl⟩
  | nackPush n' c msg_id u hn hpc hfails =>
    have hold := hfail hfails hm
    exact .inl hold
  | disconnectPush n' c closing key t hn hpc hkey hfails => exact .inl (hfail hfails hm)
  | scanPush now deadline key rest entry t hpc hhead hnow hentry hdue hfails =>
    have hold := hfail hfails hm
    exact .inl hold
  | ack | heartbeat | publishPush | drop | route | track | sendWritten | republish | audit
  | auditPush => exact .inl (by simpa using hm)
  | _ => exact .inl hm

/-- A message that is not queued yet has no failure behind it. -/
theorem staged_retry_count (h : s.step cfg a = some t)
    (hs : ∀ m, s.Staged m → m.retry_count = 0) (m : Message) (hm : t.Staged m) :
    m.retry_count = 0 := by
  rcases step_staged h hm with hm | ⟨hretry, -⟩
  · exact hs m hm
  · exact hretry

end EventQueue.Broker
