import EventQueue.Broker.Step
import Mathlib.Logic.Function.Basic

/-!
# The flow of a message's copies

What the broker is for, without its threads: copies of messages move between the main queue, the
dispatcher, the deliveries in flight, the dead-letter queue, and the DLQ logger. `Flow` is that part
of the state, with `in_flight_` as a function, and `Flow.Move` the moves that the broker makes on
it. What a move takes from the rest of the broker at that moment (the subscriptions, who is
connected, which message a thread is about to push for the first time, which delivery a thread is
about to remove) is its `Env`.

`step_move` says that every step of the broker is a move or leaves the flow alone, in the
environment that the state and the action give. The theorems about where copies can be, and how
many there are, are inductions over moves.
-/

namespace EventQueue.Broker

open TopicRouter (Target)

/-- What a move takes from the rest of the broker. -/
structure Env where
  /-- The number of failures after which a message is dead-lettered. -/
  max_retries : ℤ
  /-- The targets of a topic, by the subscriptions. -/
  targets : Bytes → List Target
  /-- The connection that a client's identifier stands for. -/
  conn : ClientId → Option ℕ
  /-- The dispatcher is about to route. -/
  routing : Prop
  /-- The message that is about to enter the queue for the first time. -/
  offers : Message → Prop
  /-- The delivery that is about to be acknowledged. -/
  acks : DeliveryKey → Prop
  /-- The delivery that is about to fail. -/
  fails : DeliveryKey → Prop

/-- Where the copies are. -/
structure Flow where
  /-- The main queue, oldest first. -/
  queue : List Message
  /-- The dispatcher, with the message in its hand. -/
  hand : DispatcherPc
  /-- The deliveries in flight. -/
  inFlight : DeliveryKey → Option InFlight
  /-- The dead-letter queue, oldest first. -/
  dlq : List Message
  /-- The dead letter that the DLQ logger is about to push on the main queue. -/
  logger : Option Message
  /-- The history. -/
  trace : List Event

/-- The events that record no move of a copy. -/
def Event.isNote : Event → Bool
  | .published .. | .audited .. | .acked .. | .heartbeat .. => true
  | _ => false

/-- The moves. -/
inductive Flow.Move (e : Env) (f : Flow) : Flow → Prop
  /-- No copy moves, and nothing is recorded. -/
  | stay : Move e f f
  /-- No copy moves. -/
  | note (x : Event) (hx : x.isNote = true) : Move e f { f with trace := f.trace ++ [x] }
  /-- A message enters the queue for the first time. -/
  | enqueue (m : Message) (hm : e.offers m) :
      Move e f { f with queue := f.queue ++ [m], trace := f.trace ++ [.enqueued m] }
  /-- A delivery is acknowledged. -/
  | ack (key : DeliveryKey) (hkey : e.acks key) :
      Move e f { f with inFlight := Function.update f.inFlight key none }
  /-- A delivery fails, and its message goes back on the queue. -/
  | requeue (key : DeliveryKey) (entry : InFlight) (hkey : e.fails key)
      (hentry : f.inFlight key = some entry) (hretry : entry.retry_count < e.max_retries) :
      Move e f { f with
        queue := f.queue ++ [entry.requeueMsg]
        inFlight := Function.update f.inFlight key none
        trace := f.trace ++ [.failed key entry, .requeued entry.requeueMsg] }
  /-- A delivery fails, and its message is dead-lettered. -/
  | deadLetter (key : DeliveryKey) (entry : InFlight) (hkey : e.fails key)
      (hentry : f.inFlight key = some entry) (hretry : e.max_retries ≤ entry.retry_count) :
      Move e f { f with
        dlq := f.dlq ++ [entry.dlqMsg]
        inFlight := Function.update f.inFlight key none
        trace := f.trace ++ [.failed key entry, .deadLettered entry.dlqMsg] }
  /-- The dispatcher takes the oldest message. -/
  | pop (m : Message) (rest : List Message) (hhand : f.hand = .idle)
      (hqueue : f.queue = m :: rest) :
      Move e f { f with queue := rest, hand := .popped m }
  /-- The dispatcher drops a message without a target. -/
  | drop (m : Message) (hrouting : e.routing) (hhand : f.hand = .popped m)
      (hnone : e.targets m.topic = []) :
      Move e f { f with hand := .idle, trace := f.trace ++ [.dropped m] }
  /-- The dispatcher routes a message. -/
  | route (m : Message) (t : Target) (todo : List Target) (hrouting : e.routing)
      (hhand : f.hand = .popped m) (hperm : (t :: todo).Perm (e.targets m.topic)) :
      Move e f { f with
        hand := .tracking m t todo, trace := f.trace ++ [.routed m (t :: todo)] }
  /-- The dispatcher tracks a target. -/
  | track (m : Message) (t : Target) (todo : List Target) (deadline : TimePoint)
      (hhand : f.hand = .tracking m t todo) :
      Move e f { f with
        hand := .sending m t todo
        inFlight := Function.update f.inFlight (m.msg_id, t.client_id)
          (some ⟨m, t.client_id, deadline, m.retry_count⟩)
        trace := f.trace ++ [.dispatched m t] }
  /-- The dispatcher writes to a connection. -/
  | sendWritten (m : Message) (t : Target) (todo : List Target) (n : ℕ)
      (hhand : f.hand = .sending m t todo) (hn : e.conn t.client_id = some n) :
      Move e f { f with
        hand := DispatcherPc.next m todo, trace := f.trace ++ [.written n m] }
  /-- The dispatcher finds no connection. -/
  | sendGone (m : Message) (t : Target) (todo : List Target)
      (hhand : f.hand = .sending m t todo) (hn : e.conn t.client_id = none) :
      Move e f { f with hand := DispatcherPc.next m todo }
  /-- The DLQ logger takes the oldest dead letter. -/
  | logPop (m : Message) (rest : List Message) (hlogger : f.logger = none)
      (hdlq : f.dlq = m :: rest) : Move e f { f with dlq := rest, logger := some m }
  /-- The DLQ logger pushes it on the queue. -/
  | republish (m : Message) (hlogger : f.logger = some m) :
      Move e f { f with
        queue := f.queue ++ [m], logger := none, trace := f.trace ++ [.republished m] }

/-! ## What moves preserve -/

/-- A history with one more note has no other event more. -/
theorem mem_of_note {x y : Event} {trace : List Event} (hx : x.isNote = true)
    (hy : y.isNote = false) (h : y ∈ trace ++ [x]) : y ∈ trace := by
  rcases List.mem_append.mp h with h | h
  · exact h
  · rw [List.mem_singleton.mp h, hx] at hy
    cases hy

/-- The message in the dispatcher's hand. -/
def DispatcherPc.message : DispatcherPc → Option Message
  | .idle => none
  | .popped m | .tracking m _ _ | .sending m _ _ => some m

@[simp] theorem DispatcherPc.message_idle : message .idle = none := rfl

@[simp] theorem DispatcherPc.message_popped (m : Message) : (popped m).message = some m := rfl

@[simp] theorem DispatcherPc.message_tracking (m : Message) (t : Target) (todo : List Target) :
    (tracking m t todo).message = some m := rfl

@[simp] theorem DispatcherPc.message_sending (m : Message) (t : Target) (todo : List Target) :
    (sending m t todo).message = some m := rfl

/-- After a send the dispatcher holds the same message or none. -/
theorem DispatcherPc.eq_of_mem_message_next {m m' : Message} {todo : List Target}
    (h : m' ∈ (next m todo).message) : m' = m := by
  cases todo with
  | nil => simp [next] at h
  | cons t todo => simpa [next, eq_comm] using h

namespace Flow

variable {e : Env} {f g : Flow} {P : Message → Prop}

/-- An entry that is left after another was cleared was there before. -/
theorem eq_some_of_update_none {i : DeliveryKey → Option InFlight} {key key' : DeliveryKey}
    {entry : InFlight} (h : Function.update i key none key' = some entry) :
    i key' = some entry := by
  by_cases hk : key' = key
  · subst hk
    simp at h
  · simpa [hk] using h

/-- An entry that is found after one was written is that one or was there before. -/
theorem eq_or_eq_some_of_update {i : DeliveryKey → Option InFlight} {key key' : DeliveryKey}
    {new entry : InFlight} (h : Function.update i key (some new) key' = some entry) :
    key' = key ∧ entry = new ∨ i key' = some entry := by
  by_cases hk : key' = key
  · subst hk
    exact .inl ⟨rfl, by simpa [eq_comm] using h⟩
  · exact .inr (by simpa [hk] using h)

/-- The history only grows. -/
theorem Move.trace_extends (hmove : Move e f g) : f.trace <+: g.trace := by
  cases hmove <;> first | exact List.prefix_rfl | exact List.prefix_append _ _

/-- A dead letter that is not republished after a move was not before, or is that of a delivery
that fails. -/
theorem Move.letters (hmove : Move e f g) {m : Message} (hm : m ∈ g.dlq ++ g.logger.toList) :
    m ∈ f.dlq ++ f.logger.toList ∨
      ∃ key entry, f.inFlight key = some entry ∧ m = entry.dlqMsg := by
  cases hmove with
  | deadLetter key entry hkey hentry hretry =>
    have hm : m ∈ f.dlq ∨ m = entry.dlqMsg ∨ m ∈ f.logger.toList := by simpa using hm
    rcases hm with hm | rfl | hm
    · exact .inl (List.mem_append_left _ hm)
    · exact .inr ⟨key, entry, hentry, rfl⟩
    · exact .inl (List.mem_append_right _ hm)
  | logPop m' rest hlogger hdlq =>
    have hm : m ∈ rest ∨ m = m' := by simpa using hm
    exact .inl (by simpa [hdlq, hlogger, or_comm] using hm)
  | republish m' hlogger => exact .inl (List.mem_append_left _ (by simpa using hm))
  | _ => exact .inl hm

/-- A delivery in flight is filed under its message and its client, with its message's count. -/
def Filed (f : Flow) : Prop :=
  ∀ key entry, f.inFlight key = some entry →
    key = (entry.msg.msg_id, entry.subscriber_id) ∧ entry.retry_count = entry.msg.retry_count

/-- A move keeps the deliveries filed. -/
theorem Filed.move (h : f.Filed) (hmove : Move e f g) : g.Filed := by
  cases hmove with
  | ack | requeue | deadLetter =>
    intro key entry hentry
    exact h key entry (eq_some_of_update_none hentry)
  | track m t todo deadline hhand =>
    intro key entry hentry
    rcases eq_or_eq_some_of_update hentry with ⟨rfl, rfl⟩ | hentry
    · exact ⟨rfl, rfl⟩
    · exact h key entry hentry
  | _ => exact h

/-- Every copy satisfies `P`. -/
structure Forall (P : Message → Prop) (f : Flow) : Prop where
  /-- Those in the queue. -/
  queue : ∀ m ∈ f.queue, P m
  /-- The one in the dispatcher's hand. -/
  hand : ∀ m ∈ f.hand.message, P m
  /-- Those in flight. -/
  inFlight : ∀ key entry, f.inFlight key = some entry → P entry.msg
  /-- Those in the dead-letter queue. -/
  dlq : ∀ m ∈ f.dlq, P m
  /-- The one in the DLQ logger's hand. -/
  logger : ∀ m ∈ f.logger, P m

/-- A weaker property holds of every copy as well. -/
theorem Forall.imp {Q : Message → Prop} (h : f.Forall P) (himp : ∀ m, P m → Q m) : f.Forall Q where
  queue m hm := himp m (h.queue m hm)
  hand m hm := himp m (h.hand m hm)
  inFlight key entry hentry := himp entry.msg (h.inFlight key entry hentry)
  dlq m hm := himp m (h.dlq m hm)
  logger m hm := himp m (h.logger m hm)

/-- A move keeps a property of every copy, when new messages have it, and so does what is pushed for
the delivery that is about to fail. -/
theorem Forall.move_of_fails (h : f.Forall P) (hmove : Move e f g)
    (hoffers : ∀ m, e.offers m → .enqueued m ∈ g.trace → P m)
    (hrequeue : ∀ key entry, e.fails key → f.inFlight key = some entry →
      entry.retry_count < e.max_retries →
      g.trace = f.trace ++ [.failed key entry, .requeued entry.requeueMsg] → P entry.requeueMsg)
    (hdead : ∀ key entry, e.fails key → f.inFlight key = some entry →
      e.max_retries ≤ entry.retry_count →
      g.trace = f.trace ++ [.failed key entry, .deadLettered entry.dlqMsg] → P entry.dlqMsg) :
    g.Forall P := by
  cases hmove with
  | stay | note => exact ⟨h.queue, h.hand, h.inFlight, h.dlq, h.logger⟩
  | enqueue m hm =>
    refine ⟨?_, h.hand, h.inFlight, h.dlq, h.logger⟩
    simpa [or_imp, forall_and] using ⟨h.queue, hoffers m hm (by simp)⟩
  | ack key hkey =>
    exact ⟨h.queue, h.hand, fun k entry hk => h.inFlight k entry (eq_some_of_update_none hk), h.dlq,
      h.logger⟩
  | requeue key entry hkey hentry hretry =>
    have hnew : P entry.requeueMsg := hrequeue key entry hkey hentry hretry rfl
    refine ⟨?_, h.hand, fun k entry hk => h.inFlight k entry (eq_some_of_update_none hk), h.dlq,
      h.logger⟩
    simpa [or_imp, forall_and] using ⟨h.queue, hnew⟩
  | deadLetter key entry hkey hentry hretry =>
    have hnew : P entry.dlqMsg := hdead key entry hkey hentry hretry rfl
    refine ⟨h.queue, h.hand, fun k entry hk => h.inFlight k entry (eq_some_of_update_none hk), ?_,
      h.logger⟩
    simpa [or_imp, forall_and] using ⟨h.dlq, hnew⟩
  | pop m rest hhand hqueue =>
    have hall : ∀ m' ∈ m :: rest, P m' := hqueue ▸ h.queue
    exact ⟨fun m' hm' => hall m' (List.mem_cons_of_mem _ hm'), by simpa using hall m (by simp),
      h.inFlight, h.dlq, h.logger⟩
  | drop m hrouting hhand hnone => exact ⟨h.queue, by simp, h.inFlight, h.dlq, h.logger⟩
  | route m t todo hrouting hhand hperm =>
    exact ⟨h.queue, by simpa [hhand] using h.hand, h.inFlight, h.dlq, h.logger⟩
  | track m t todo deadline hhand =>
    have hm : P m := h.hand m (by simp [hhand])
    refine ⟨h.queue, by simpa using hm, fun k entry hk => ?_, h.dlq, h.logger⟩
    rcases eq_or_eq_some_of_update hk with ⟨-, rfl⟩ | hk
    · exact hm
    · exact h.inFlight k entry hk
  | sendWritten m t todo n hhand | sendGone m t todo hhand =>
    have hm : P m := h.hand m (by simp [hhand])
    exact ⟨h.queue, fun m' hm' => DispatcherPc.eq_of_mem_message_next hm' ▸ hm, h.inFlight, h.dlq,
      h.logger⟩
  | logPop m rest hlogger hdlq =>
    have hall : ∀ m' ∈ m :: rest, P m' := hdlq ▸ h.dlq
    exact ⟨h.queue, h.hand, h.inFlight, fun m' hm' => hall m' (List.mem_cons_of_mem _ hm'),
      by simpa using hall m (by simp)⟩
  | republish m hlogger =>
    have hm : P m := h.logger m (by simp [hlogger])
    refine ⟨?_, h.hand, h.inFlight, h.dlq, by simp⟩
    simpa [or_imp, forall_and] using ⟨h.queue, hm⟩

/-- A move keeps a property of every copy, when new messages have it and a failure keeps it. -/
theorem Forall.move (h : f.Forall P) (hfiled : f.Filed) (hmove : Move e f g)
    (hoffers : ∀ m, e.offers m → .enqueued m ∈ g.trace → P m)
    (hrequeue : ∀ m, P m → m.retry_count < e.max_retries →
      P { m with retry_count := m.retry_count + 1 })
    (hdead : ∀ m, P m → e.max_retries ≤ m.retry_count →
      P ⟨m.msg_id, dlqPrefix ++ m.topic, m.body, 0, m.origin⟩) : g.Forall P := by
  refine h.move_of_fails hmove hoffers (fun key entry _ hentry hretry _ => ?_)
    fun key entry _ hentry hretry _ => ?_
  · have hcount := (hfiled key entry hentry).2
    have hnew := hrequeue entry.msg (h.inFlight key entry hentry) (hcount ▸ hretry)
    rwa [← hcount] at hnew
  · exact hdead entry.msg (h.inFlight key entry hentry) ((hfiled key entry hentry).2 ▸ hretry)

end Flow

/-! ## The broker moves its copies so -/

namespace State

/-- The dead letter that the DLQ logger is about to push. -/
def deadLetterInHand : LoggerPc → Option Message
  | .republish m => some m
  | _ => none

/-- The part of the state that holds copies. -/
def flow (s : State) : Flow where
  queue := s.main_queue.queue
  hand := s.dispatcher
  inFlight key := s.engine.in_flight.lookup key
  dlq := s.dlq.queue
  logger := deadLetterInHand s.logger
  trace := s.trace

/-- The message that an action would push on `main_queue` for the first time. -/
def offered (s : State) : Action → Option Message
  | .client n => s.conns[n]?.bind fun c =>
      match c.pc with
      | .publishPush m => some m
      | _ => none
  | .log =>
    match s.logger with
    | .auditPush m => some m
    | _ => none
  | _ => none

/-- The delivery that an action would acknowledge. -/
def acking (s : State) : Action → Option DeliveryKey
  | .client n => s.conns[n]?.bind fun c =>
      match c.pc with
      | .ackEngine msg_id => some (msg_id, c.sock)
      | _ => none
  | _ => none

/-- The delivery that an action would fail: the one that was refused, the next of a client that
disconnects, or the one whose deadline the scanner has found to be past. -/
def failing (s : State) : Action → Option DeliveryKey
  | .client n => s.conns[n]?.bind fun c =>
      match c.pc with
      | .nackPush msg_id => some (msg_id, c.sock)
      | .disconnectLoop _ => s.engine.nextOf c.sock
      | _ => none
  | .scan =>
    match s.scanner, s.engine.deadlines with
    | .scanning now, (deadline, key) :: _ =>
      if deadline ≤ now ∧ ∃ entry ∈ s.engine.in_flight.lookup key, entry.deadline ≤ deadline then
        some key
      else none
    | _, _ => none
  | _ => none

/-- The environment of the move that an action makes. -/
def env (cfg : Config) (s : State) (a : Action) : Env where
  max_retries := cfg.max_retries
  targets := s.router.targets
  conn id := s.clients.lookup id
  routing := ∃ targets, a = .route targets
  offers m := s.offered a = some m
  acks key := s.acking a = some key
  fails key := s.failing a = some key

end State

variable {cfg : Config} {s t : State} {a : Action}

/-- Erasing a key of `in_flight_` clears it in the function. -/
theorem lookup_erase_eq_update (m : AList fun _ : DeliveryKey => InFlight) (key : DeliveryKey) :
    (fun k => (m.erase key).lookup k) = Function.update (fun k => m.lookup k) key none := by
  funext k
  by_cases h : k = key
  · subst h
    simp
  · simp [h]

/-- Writing an entry of `in_flight_` writes it in the function. -/
theorem lookup_insert_eq_update (m : AList fun _ : DeliveryKey => InFlight) (key : DeliveryKey)
    (entry : InFlight) :
    (fun k => (m.insert key entry).lookup k) =
      Function.update (fun k => m.lookup k) key (some entry) := by
  funext k
  by_cases h : k = key
  · subst h
    simp
  · simp [h]

/-- A failing delivery moves its copy. The other thread state that the caller changes as well does
not matter to the flow. -/
theorem Fails.move {key : DeliveryKey} {u : State} {f : Flow} (h : Fails cfg u key t)
    (hu : u.flow = f) (hkey : s.failing a = some key) :
    Flow.Move (s.env cfg a) f t.flow := by
  subst hu
  cases h with
  | requeue entry main_queue hentry hretry hpush =>
    have hqueue := (SafeQueue.push_eq_some hpush).1
    simpa [State.flow, hqueue, lookup_erase_eq_update] using
      Flow.Move.requeue (e := s.env cfg a) (f := u.flow) key entry hkey hentry hretry
  | deadLetter entry dlq hentry hretry hpush =>
    have hqueue := (SafeQueue.push_eq_some hpush).1
    simpa [State.flow, hqueue, lookup_erase_eq_update] using
      Flow.Move.deadLetter (e := s.env cfg a) (f := u.flow) key entry hkey hentry hretry

/-- Every step of the broker makes a move. -/
theorem step_move (h : s.step cfg a = some t) : Flow.Move (s.env cfg a) s.flow t.flow := by
  cases step_sound h with
  | publish n c type msg_id payload m hn hpc hlen htype hm => exact .note _ rfl
  | ack n c => exact .note _ rfl
  | heartbeat n c => exact .note _ rfl
  | publishPush n c m main_queue hn hpc hpush =>
    -- A completed push adds its message to the end.
    have hqueue := (SafeQueue.push_eq_some hpush).1
    simpa [State.flow, hqueue] using Flow.Move.enqueue (e := s.env cfg (.client n)) (f := s.flow) m
      (by simp [State.env, State.offered, hn, hpc])
  | ackEngine n c msg_id hn hpc hmu =>
    simpa [State.flow, AckEngine.ack, lookup_erase_eq_update] using
      Flow.Move.ack (e := s.env cfg (.client n)) (f := s.flow) (msg_id, c.sock)
        (by simp [State.env, State.acking, hn, hpc])
  | nackPush n c msg_id u hn hpc hfail =>
    exact hfail.move rfl (by simp [State.failing, hn, hpc])
  | disconnectPush n c closing key t hn hpc hkey hfail =>
    exact hfail.move rfl (by simp [State.failing, hn, hpc, hkey])
  | scanPush now deadline key rest entry t hpc hhead hnow hentry hdue hfail =>
    exact hfail.move rfl (by simp [State.failing, hpc, hhead, hnow, hentry, hdue])
  | pop m main_queue hpc hpop => exact .pop m _ hpc (SafeQueue.tryPop_eq_some hpop).1
  | drop m hpc hnone => exact .drop m ⟨_, rfl⟩ hpc hnone
  | route m t todo hpc hperm => exact .route m t todo ⟨_, rfl⟩ hpc hperm
  | track now m t todo hpc hmu =>
    simpa [State.flow, AckEngine.track, lookup_insert_eq_update] using
      Flow.Move.track (e := s.env cfg (.track now)) (f := s.flow) m t todo (now + cfg.ack_timeout)
        hpc
  | sendWritten m t todo n hpc hn => exact .sendWritten m t todo n hpc hn
  | sendGone m t todo hpc hn => exact .sendGone m t todo hpc hn
  | logPop m dlq hpc hpop =>
    exact .logPop m _ (by simp [State.flow, hpc, State.deadLetterInHand])
      (SafeQueue.tryPop_eq_some hpop).1
  | republish m main_queue hpc hpush =>
    have hqueue := (SafeQueue.push_eq_some hpush).1
    simpa [State.flow, hqueue, State.deadLetterInHand] using
      Flow.Move.republish (e := s.env cfg .log) (f := s.flow) m
        (by simp [State.flow, hpc, State.deadLetterInHand])
  | audit m sys hpc hsys =>
    simpa [State.flow, hpc, State.deadLetterInHand] using
      Flow.Move.note (e := s.env cfg .log) (f := s.flow) (.audited sys) rfl
  | auditAppend sys hpc =>
    simpa [State.flow, hpc, State.deadLetterInHand] using
      Flow.Move.stay (e := s.env cfg .log) (f := s.flow)
  | auditPush sys main_queue hpc hpush =>
    have hqueue := (SafeQueue.push_eq_some hpush).1
    simpa [State.flow, hqueue, hpc, State.deadLetterInHand] using
      Flow.Move.enqueue (e := s.env cfg .log) (f := s.flow) sys
        (by simp [State.env, State.offered, hpc])
  | accept | ignore | subscribe | nack | errorResp | hangup | publishAppend | ackWal | nackNone
  | nackLock | eraseClient | unsubscribe | disconnectLock | disconnectDone | wake | scanLock
  | scanDone | scanSkip | flush | stopWal => exact .stay

/-- The message that an action pushes for the first time was staged. -/
theorem staged_of_offered {m : Message} (h : s.offered a = some m) : s.Staged m := by
  cases a with
  | client n =>
    obtain ⟨c, hc, hm⟩ := Option.bind_eq_some_iff.mp h
    refine .inl ⟨c, List.mem_of_getElem? hc, ?_⟩
    cases hpc : c.pc <;> simp_all [ClientPc.message]
  | log =>
    right
    cases hpc : s.logger <;> simp_all [State.offered, LoggerPc.message]
  | _ => simp [State.offered] at h

/-! ## The flow at the start -/

variable {file : Bytes} {order : List Message}

/-- After a start the queue holds what was replayed, and nothing else has happened. -/
theorem flow_of_start (h : State.start cfg file order = some s) :
    s.flow = ⟨State.replayed order, .idle, fun _ => none, [], none,
      (State.replayed order).map .enqueued⟩ := by
  unfold State.start at h
  split_ifs at h
  obtain rfl := Option.some.inj h
  simp [State.flow, SafeQueue.empty, AckEngine.empty, State.deadLetterInHand]

/-- After a start no thread holds a message. -/
theorem not_staged_of_start (h : State.start cfg file order = some s) (m : Message) :
    ¬s.Staged m := by
  unfold State.start at h
  split_ifs at h
  obtain rfl := Option.some.inj h
  simp [State.Staged, LoggerPc.message]

/-- A start replays the pending messages of the log. -/
theorem perm_of_start (h : State.start cfg file order = some s) :
    order.Perm (replayMessages file) := by
  unfold State.start at h
  split_ifs at h with horder
  exact horder.1

/-- A replayed message is the last of its identifier in the log, was not acknowledged there, and has
no failure behind it. -/
theorem logged_of_replayed (h : State.start cfg file order = some s) {m : Message}
    (hm : m ∈ State.replayed order) : .ack m.msg_id ∉ (walCodec.run file).1 ∧
      (publishedAs m.msg_id (walCodec.run file).1).getLast? = some (m.topic, m.body) ∧
      m.retry_count = 0 := by
  obtain ⟨⟨m', i⟩, hmem, rfl⟩ := List.mem_map.mp hm
  have hmem : m' ∈ replayMessages file :=
    (perm_of_start h).subset (List.fst_mem_of_mem_zipIdx hmem)
  obtain ⟨hack, hlast, hretry, -⟩ := mem_pending_recover.mp hmem
  exact ⟨hack, hlast, hretry⟩

/-- After a start the log has no record of its own, and no connection is open. -/
theorem wal_of_start (h : State.start cfg file order = some s) :
    s.wal = WalWriter.create file ∧ s.conns = [] ∧ s.logger = .idle := by
  unfold State.start at h
  split_ifs at h
  obtain rfl := Option.some.inj h
  exact ⟨rfl, rfl, rfl⟩

end EventQueue.Broker
