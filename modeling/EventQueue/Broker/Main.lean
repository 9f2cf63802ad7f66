import EventQueue.Broker.SafeQueue
import EventQueue.Broker.TopicRouter
import EventQueue.Broker.AckEngine
import EventQueue.Broker.WalWriter
import EventQueue.Lib.Transition

/-!
# The broker

`broker/src/main.cpp` with the threads that it starts: one per connection (`handle_client`, which
calls `on_frame`), the dispatcher, the scanner of the acknowledgement engine, the DLQ logger, and
the flush thread of the log. A step is one atomic action of one thread: an access to a queue, to the
router, or to the log under its own mutex, or a whole critical section of `AckEngine::mu_` that
makes no push. `nack`, `client_disconnected`, and the scanner push while they hold `mu_`, so the
mutex has an owner (`mu`) and each of their pushes is a step of its own, which is not enabled while
its queue is full.

`trace` is a ghost: the history of what happened, oldest first, for the statements about runs.
-/

namespace EventQueue.Broker

open TopicRouter (Target)

/-- The settings that `main` takes from the environment. -/
structure Config where
  /-- The capacity of `main_queue` and of `dlq`. -/
  queue_cap : ℕ
  /-- The number of failures after which a message is dead-lettered. -/
  max_retries : ℤ
  /-- How long a delivery waits for its acknowledgement. -/
  ack_timeout : TimePoint
deriving DecidableEq, Repr

/-! ## Threads -/

/-- Where the thread of a connection stands. `closing` tells the disconnect notification of
`handle_client`, after which the thread ends, from an ERROR_RESP frame that a client sent. -/
inductive ClientPc
  /-- In the read loop. -/
  | reading
  /-- PUBLISH: the identifier is drawn; next `wal.append`. -/
  | publishAppend (m : Message)
  /-- PUBLISH: next `main_queue.push`. -/
  | publishPush (m : Message)
  /-- ACK: next `ack_engine.ack`. -/
  | ackEngine (msg_id : UInt64)
  /-- ACK: next `wal.acknowledge`. -/
  | ackWal (msg_id : UInt64)
  /-- NACK: next the lock of `ack_engine.nack`. -/
  | nackLock (msg_id : UInt64)
  /-- NACK: holds `mu_`; next the push of `requeue_or_dlq`. -/
  | nackPush (msg_id : UInt64)
  /-- Out of the read loop with the socket closed; next `clients_.erase`. -/
  | eraseClient
  /-- ERROR_RESP: next `router.unsubscribe`. -/
  | unsubscribe (closing : Bool)
  /-- ERROR_RESP: next the lock of `client_disconnected`. -/
  | disconnectLock (closing : Bool)
  /-- ERROR_RESP: holds `mu_`, in the loop of `client_disconnected`. -/
  | disconnectLoop (closing : Bool)
  /-- The thread has ended. -/
  | closed
deriving DecidableEq, Repr

/-- A connection: its socket, which is also its client's identifier, and its thread. -/
structure Conn where
  /-- The descriptor. -/
  sock : ClientId
  /-- Where its thread stands. -/
  pc : ClientPc
deriving DecidableEq, Repr

/-- Whether the connection's socket is still open: its thread has not left the read loop. -/
def Conn.isOpen (c : Conn) : Bool :=
  match c.pc with
  | .eraseClient | .unsubscribe true | .disconnectLock true | .disconnectLoop true
  | .closed => false
  | _ => true

/-- The connections after the thread of the `n`-th has moved to `pc`. -/
def goTo (conns : List Conn) (n : ℕ) (pc : ClientPc) : List Conn :=
  conns.modify n fun c => { c with pc }

/-- Where the dispatcher stands. -/
inductive DispatcherPc
  /-- Next `main_queue.try_pop_for`. -/
  | idle
  /-- Holds a message; next `router.route`. -/
  | popped (m : Message)
  /-- Next `ack_engine.track` for a target; the others follow. -/
  | tracking (m : Message) (t : Target) (todo : List Target)
  /-- Next `send_to` for a target that is tracked; the others follow. -/
  | sending (m : Message) (t : Target) (todo : List Target)
deriving DecidableEq, Repr

/-- The head of the dispatcher's loop over the targets. -/
def DispatcherPc.next (m : Message) : List Target → DispatcherPc
  | [] => .idle
  | t :: todo => .tracking m t todo

/-- Where the scanner stands. -/
inductive ScannerPc
  /-- Asleep. -/
  | sleeping
  /-- Has read the clock; next the lock. -/
  | locking (now : TimePoint)
  /-- Holds `mu_`, in the inner loop. -/
  | scanning (now : TimePoint)
deriving DecidableEq, Repr

/-- Where the DLQ logger stands. -/
inductive LoggerPc
  /-- Next `dlq.try_pop_for`. -/
  | idle
  /-- Holds a dead letter; next its push on `main_queue`. -/
  | republish (m : Message)
  /-- Has pushed it; next the audit event's identifier. -/
  | audit (m : Message)
  /-- Next `wal.append` of the audit event. -/
  | auditAppend (sys : Message)
  /-- Next the push of the audit event on `main_queue`. -/
  | auditPush (sys : Message)
deriving DecidableEq, Repr

/-- The thread that holds `AckEngine::mu_` across steps. -/
inductive Holder
  /-- The thread of a connection, in `nack` or `client_disconnected`. -/
  | conn (n : ℕ)
  /-- The scanner. -/
  | scanner
deriving DecidableEq, Repr

/-- Ghost: what the history records. -/
inductive Event
  /-- A PUBLISH frame of a connection was accepted. -/
  | published (n : ℕ) (m : Message)
  /-- The DLQ logger made an audit event. -/
  | audited (m : Message)
  /-- A message entered `main_queue` for the first time: published, replayed, or an audit event. -/
  | enqueued (m : Message)
  /-- A client sent an ACK frame. -/
  | acked (id : ClientId) (msg_id : UInt64)
  /-- The broker answered a heartbeat. -/
  | heartbeat (id : ClientId)
  /-- A message was routed to some targets. -/
  | routed (m : Message) (targets : List Target)
  /-- A message was dropped: no subscription matched its topic. -/
  | dropped (m : Message)
  /-- A message was tracked for a target, and is handed to `send_to`. -/
  | dispatched (m : Message) (t : Target)
  /-- `send_to` wrote a message's EVENT_DATA frame to a connection. -/
  | written (n : ℕ) (m : Message)
  /-- A delivery failed: its entry was removed by a NACK, a timeout, or a disconnect. -/
  | failed (key : DeliveryKey) (entry : InFlight)
  /-- A failed delivery's message went back on `main_queue`. -/
  | requeued (m : Message)
  /-- A failed delivery's message went to `dlq`. -/
  | deadLettered (m : Message)
  /-- The DLQ logger pushed a dead letter on `main_queue`. -/
  | republished (m : Message)
deriving DecidableEq, Repr

/-! ## State -/

/-- The state of the broker's process. -/
structure State where
  /-- The queue of the dispatcher. -/
  main_queue : SafeQueue Message
  /-- The queue of the DLQ logger. -/
  dlq : SafeQueue Message
  /-- The subscriptions. -/
  router : TopicRouter
  /-- The deliveries in flight. -/
  engine : AckEngine
  /-- The owner of `AckEngine::mu_`, while it is held across steps. -/
  mu : Option Holder
  /-- The log. -/
  wal : WalWriter
  /-- The identifier that is handed out next. -/
  next_id : UInt64
  /-- `TcpServer::clients_`: the connection that a client's identifier stands for. -/
  clients : AList fun _ : ClientId => ℕ
  /-- The connections, in the order in which they were accepted. -/
  conns : List Conn
  /-- The dispatcher. -/
  dispatcher : DispatcherPc
  /-- The scanner. -/
  scanner : ScannerPc
  /-- The DLQ logger. -/
  logger : LoggerPc
  /-- Ghost: the `origin` of the next new message. -/
  origins : ℕ
  /-- Ghost: the history. -/
  trace : List Event

/-- One atomic action of one thread. -/
inductive Action
  /-- `accept_loop` accepts a connection and registers it. -/
  | accept (sock : ClientId)
  /-- `handle_client` hands a complete frame to `on_frame`. -/
  | frame (n : ℕ) (type : UInt8) (msg_id : UInt64) (payload : Bytes)
  /-- `handle_client` leaves its read loop and closes its socket. -/
  | hangup (n : ℕ)
  /-- The thread of a connection goes on with what it is doing. -/
  | client (n : ℕ)
  /-- The dispatcher pops a message. -/
  | pop
  /-- The dispatcher routes it; the targets may come in any order. -/
  | route (targets : List Target)
  /-- The dispatcher tracks the next target, at a reading of the clock. -/
  | track (now : TimePoint)
  /-- The dispatcher sends to the target that it has tracked. -/
  | send
  /-- The scanner wakes up and reads the clock. -/
  | wake (now : TimePoint)
  /-- The scanner goes on with what it is doing. -/
  | scan
  /-- The DLQ logger goes on with what it is doing. -/
  | log
  /-- The flush thread of the log goes on with what it is doing. -/
  | flush
  /-- The log's destructor asks the flush thread to stop. -/
  | stopWal
deriving DecidableEq, Repr

namespace State

/-! ## Steps -/

/-- `requeue_or_dlq` on an entry, and the `erase` that follows it in all three callers. The step is
not enabled while the queue that it pushes on is full. -/
def fail (cfg : Config) (s : State) (key : DeliveryKey) : Option State :=
  match s.engine.in_flight.lookup key with
  | none => none
  | some entry =>
    let engine := { s.engine with in_flight := s.engine.in_flight.erase key }
    match AckEngine.requeueOrDlq cfg.max_retries entry with
    | .requeue m => (s.main_queue.push m).map fun main_queue =>
        { s with main_queue, engine, trace := s.trace ++ [.failed key entry, .requeued m] }
    | .deadLetter m => (s.dlq.push m).map fun dlq =>
        { s with dlq, engine, trace := s.trace ++ [.failed key entry, .deadLettered m] }

/-- `on_frame`, up to the first access that may have to wait. -/
def onFrame (s : State) (n : ℕ) (c : Conn) (type : UInt8) (msg_id : UInt64) (payload : Bytes) :
    State :=
  match MessageType.ofByte type with
  | some .subscribe =>
    let sub := decodeSubscribe payload
    if sub.topic.isEmpty then s
    else { s with router := s.router.subscribe sub.topic sub.group c.sock }
  | some .publish =>
    let pub := decodePublish payload
    if pub.topic.isEmpty then s
    else
      let m : Message :=
        { msg_id := if msg_id ≠ 0 then msg_id else s.next_id
          topic := pub.topic
          body := pub.body
          retry_count := 0
          origin := s.origins }
      { s with
        next_id := if msg_id ≠ 0 then s.next_id else s.next_id + 1
        origins := s.origins + 1
        conns := goTo s.conns n (.publishAppend m)
        trace := s.trace ++ [.published n m] }
  | some .ack =>
    { s with
      conns := goTo s.conns n (.ackEngine msg_id)
      trace := s.trace ++ [.acked c.sock msg_id] }
  | some .nack => { s with conns := goTo s.conns n (.nackLock msg_id) }
  | some .heartbeat => { s with trace := s.trace ++ [.heartbeat c.sock] }
  | some .errorResp => { s with conns := goTo s.conns n (.unsubscribe false) }
  | some .eventData | none => s

/-- The next action of the thread of a connection that is in a handler. -/
def clientStep (cfg : Config) (s : State) (n : ℕ) (c : Conn) : Option State :=
  match c.pc with
  | .reading | .closed => none
  | .publishAppend m =>
    some { s with wal := s.wal.add (.ofMessage m), conns := goTo s.conns n (.publishPush m) }
  | .publishPush m => (s.main_queue.push m).map fun main_queue =>
      { s with main_queue, conns := goTo s.conns n .reading, trace := s.trace ++ [.enqueued m] }
  | .ackEngine msg_id =>
    if s.mu.isSome then none
    else some { s with
      engine := s.engine.ack msg_id c.sock, conns := goTo s.conns n (.ackWal msg_id) }
  | .ackWal msg_id =>
    some { s with wal := s.wal.add (.ack msg_id), conns := goTo s.conns n .reading }
  | .nackLock msg_id =>
    if s.mu.isSome then none
    else if (s.engine.in_flight.lookup (msg_id, c.sock)).isNone then
      some { s with conns := goTo s.conns n .reading }
    else some { s with mu := some (.conn n), conns := goTo s.conns n (.nackPush msg_id) }
  | .nackPush msg_id => (s.fail cfg (msg_id, c.sock)).map fun s =>
      { s with mu := none, conns := goTo s.conns n .reading }
  | .eraseClient =>
    some { s with
      clients := s.clients.erase c.sock, conns := goTo s.conns n (.unsubscribe true) }
  | .unsubscribe closing =>
    some { s with
      router := s.router.unsubscribe c.sock, conns := goTo s.conns n (.disconnectLock closing) }
  | .disconnectLock closing =>
    if s.mu.isSome then none
    else some { s with mu := some (.conn n), conns := goTo s.conns n (.disconnectLoop closing) }
  | .disconnectLoop closing =>
    match s.engine.nextOf c.sock with
    | some key => s.fail cfg key
    | none => some { s with
        mu := none, conns := goTo s.conns n (if closing then .closed else .reading) }

/-- The next action of the scanner, once it is awake: the lock, and then one round of the inner loop
of `redelivery_loop` or its end. -/
def scanStep (cfg : Config) (s : State) : Option State :=
  match s.scanner with
  | .sleeping => none
  | .locking now =>
    if s.mu.isSome then none
    else some { s with mu := some .scanner, scanner := .scanning now }
  | .scanning now =>
    match s.engine.deadlines with
    | [] => some { s with mu := none, scanner := .sleeping }
    | (deadline, key) :: rest =>
      if now < deadline then some { s with mu := none, scanner := .sleeping }
      else
        let popped := { s with engine := { s.engine with deadlines := rest } }
        match s.engine.in_flight.lookup key with
        | none => some popped
        | some entry => if deadline < entry.deadline then some popped else popped.fail cfg key

/-- The body of the audit event for a dead letter. -/
def auditBody (m : Message) : Bytes :=
  ascii "\x7b\"original_id\": \"" ++ decimal m.msg_id.toNat ++
    ascii "\", \"original_topic\": \"" ++ m.topic ++ ascii "\"" ++
    ascii ", \"original_body\": " ++ (if m.body.isEmpty then ascii "\x7b\x7d" else m.body) ++
    ascii "\x7d"

/-- The next action of the DLQ logger. -/
def logStep (s : State) : Option State :=
  match s.logger with
  | .idle => s.dlq.tryPop.map fun (m, dlq) => { s with dlq, logger := .republish m }
  | .republish m => (s.main_queue.push m).map fun main_queue =>
      { s with main_queue, logger := .audit m, trace := s.trace ++ [.republished m] }
  | .audit m =>
    let sys : Message :=
      { msg_id := s.next_id
        topic := sysDlqTopic
        body := auditBody m
        retry_count := 0
        origin := s.origins }
    some { s with
      next_id := s.next_id + 1
      origins := s.origins + 1
      logger := .auditAppend sys
      trace := s.trace ++ [.audited sys] }
  | .auditAppend sys =>
    some { s with wal := s.wal.add (.ofMessage sys), logger := .auditPush sys }
  | .auditPush sys => (s.main_queue.push sys).map fun main_queue =>
      { s with main_queue, logger := .idle, trace := s.trace ++ [.enqueued sys] }

/-- One step of the broker; `none` when the action is not enabled. -/
def step (cfg : Config) (s : State) : Action → Option State
  | .accept sock =>
    if s.conns.any fun c => c.isOpen && c.sock = sock then none
    else some { s with
      clients := s.clients.insert sock s.conns.length, conns := s.conns ++ [⟨sock, .reading⟩] }
  | .frame n type msg_id payload =>
    match s.conns[n]? with
    | none => none
    | some c =>
      if c.pc = .reading ∧ payload.length < 2 ^ 32 then some (s.onFrame n c type msg_id payload)
      else none
  | .hangup n =>
    match s.conns[n]? with
    | none => none
    | some c =>
      if c.pc = .reading then some { s with conns := goTo s.conns n .eraseClient } else none
  | .client n => s.conns[n]?.bind fun c => s.clientStep cfg n c
  | .pop =>
    match s.dispatcher with
    | .idle => s.main_queue.tryPop.map fun (m, main_queue) =>
        { s with main_queue, dispatcher := .popped m }
    | _ => none
  | .route targets =>
    match s.dispatcher with
    | .popped m =>
      if targets.Perm (s.router.route m).1 then
        some { s with
          router := (s.router.route m).2
          dispatcher := DispatcherPc.next m targets
          trace := s.trace ++ [if targets.isEmpty then .dropped m else .routed m targets] }
      else none
    | _ => none
  | .track now =>
    match s.dispatcher with
    | .tracking m t todo =>
      if s.mu.isSome then none
      else some { s with
        engine := s.engine.track m t.client_id now cfg.ack_timeout
        dispatcher := .sending m t todo
        trace := s.trace ++ [.dispatched m t] }
    | _ => none
  | .send =>
    match s.dispatcher with
    | .sending m t todo =>
      some { s with
        dispatcher := DispatcherPc.next m todo
        trace := s.trace ++ ((s.clients.lookup t.client_id).map fun n => Event.written n m).toList }
    | _ => none
  | .wake now =>
    match s.scanner with
    | .sleeping => some { s with scanner := .locking now }
    | _ => none
  | .scan => s.scanStep cfg
  | .log => s.logStep
  | .flush => s.wal.flushStep.map fun wal => { s with wal }
  | .stopWal => some { s with wal := s.wal.requestStop }

/-! ## Startup -/

/-- The messages of a replay as they enter the queue, each with an `origin` of its own. -/
def replayed (order : List Message) : List Message :=
  order.zipIdx.map fun (m, i) => { m with origin := i }

/-- The state after `main` has opened a log file and replayed it, pushing its pending messages in
some order. It is never reached when they do not all fit in the queue: the push that finds it full
waits for a dispatcher that is not there yet. -/
def start (cfg : Config) (file : Bytes) (order : List Message) : Option State :=
  if h : order.Perm (replayMessages file) ∧ order.length ≤ cfg.queue_cap then
    some
      { main_queue := ⟨cfg.queue_cap, replayed order, by simpa [replayed] using h.2⟩
        dlq := SafeQueue.empty cfg.queue_cap
        router := TopicRouter.empty
        engine := AckEngine.empty
        mu := none
        wal := WalWriter.create file
        next_id := 1
        clients := ∅
        conns := []
        dispatcher := .idle
        scanner := .sleeping
        logger := .idle
        origins := order.length
        trace := (replayed order).map .enqueued }
  else none

/-- The state after a start without a log file. -/
def init (cfg : Config) : State where
  main_queue := SafeQueue.empty cfg.queue_cap
  dlq := SafeQueue.empty cfg.queue_cap
  router := TopicRouter.empty
  engine := AckEngine.empty
  mu := none
  wal := WalWriter.create []
  next_id := 1
  clients := ∅
  conns := []
  dispatcher := .idle
  scanner := .sleeping
  logger := .idle
  origins := 0
  trace := []

/-- A start without a log file is a start on an empty one. -/
theorem start_nil (cfg : Config) : start cfg [] [] = some (init cfg) := by
  have hnil : replayMessages [] = [] := rfl
  simp [start, hnil, init, replayed, SafeQueue.empty]

end State

end EventQueue.Broker
