import EventQueue.Broker.Flow

/-!
# At-least-once delivery

Once a message was dispatched to a subscriber, the broker holds a copy of it until a client
acknowledges it or its dead letter is republished. The broker keeps this promise in every run in
which a redelivered copy (one with a failure behind it) finds a subscriber when it is routed. A
redelivered copy that finds none is dropped with nothing left behind: `redelivery_dropped` is the
run in which the only consumer disconnects before it answers.

The invariant asks for more than a copy. A first copy in the queue promises nothing, since it may
be dropped, and neither does the copy in the hand of a dispatcher that has sent it to its last
target. `Flow.Live` counts the copies that cannot vanish; every move that takes one away leaves
another, or an acknowledgement, or a republished dead letter.
-/

namespace EventQueue.Broker

open TopicRouter (Target)
open Transition (Run exec execChecked run_of_execChecked)

namespace Flow

variable {e : Env} {f g : Flow} {msg_id : UInt64}

/-! ## Copies of a message -/

/-- A list of messages holds a copy. -/
def Among (ms : List Message) (msg_id : UInt64) : Prop := ∃ m ∈ ms, m.msg_id = msg_id

/-- A copy is in flight. -/
def Flying (inFlight : DeliveryKey → Option InFlight) (msg_id : UInt64) : Prop :=
  ∃ key entry, inFlight key = some entry ∧ entry.msg.msg_id = msg_id

/-- The broker holds a copy of the message: in the main queue, in the dispatcher's hand, in flight,
in the dead-letter queue, or in the DLQ logger's hand. -/
def HasCopy (f : Flow) (msg_id : UInt64) : Prop :=
  Among f.queue msg_id ∨ Among f.hand.message.toList msg_id ∨ Flying f.inFlight msg_id ∨
    Among f.dlq msg_id ∨ Among f.logger.toList msg_id

/-- A copy in the queue that is not dropped when it is routed: it has a failure behind it. -/
def Redelivered (queue : List Message) (msg_id : UInt64) : Prop :=
  ∃ m ∈ queue, m.msg_id = msg_id ∧ 0 < m.retry_count

/-- The dispatcher is going to track the copy in its hand. -/
def Held (msg_id : UInt64) : DispatcherPc → Prop
  | .popped m => m.msg_id = msg_id ∧ 0 < m.retry_count
  | .tracking m _ _ => m.msg_id = msg_id
  | .idle | .sending .. => False

/-- The broker holds a copy of the message that cannot vanish. -/
def Live (f : Flow) (msg_id : UInt64) : Prop :=
  Redelivered f.queue msg_id ∨ Held msg_id f.hand ∨ Flying f.inFlight msg_id ∨
    Among f.dlq msg_id ∨ Among f.logger.toList msg_id

/-- A copy that cannot vanish is a copy. -/
theorem Live.hasCopy (h : f.Live msg_id) : f.HasCopy msg_id := by
  rcases h with ⟨m, hm, hid, -⟩ | h | h | h | h
  · exact .inl ⟨m, hm, hid⟩
  · refine .inr (.inl ?_)
    cases hhand : f.hand with
    | popped m => exact ⟨m, by simp, (hhand ▸ h : Held msg_id (.popped m)).1⟩
    | tracking m t todo => exact ⟨m, by simp, (hhand ▸ h : Held msg_id (.tracking m t todo))⟩
    | idle | sending => simp [hhand, Held] at h
  · exact .inr (.inr (.inl h))
  · exact .inr (.inr (.inr (.inl h)))
  · exact .inr (.inr (.inr (.inr h)))

/-- A client has acknowledged the message. -/
def Acked (f : Flow) (msg_id : UInt64) : Prop := ∃ c, .acked c msg_id ∈ f.trace

/-- The DLQ logger has republished the message: a dead letter of a copy that was dispatched. -/
def Republished (f : Flow) (msg_id : UInt64) : Prop :=
  ∃ m d t, .republished m ∈ f.trace ∧ .dispatched d t ∈ f.trace ∧ d.msg_id = msg_id ∧
    m.msg_id = msg_id ∧ m.topic = dlqPrefix ++ d.topic ∧ m.body = d.body

/-- The message needs no copy any more, or there is one that cannot vanish. -/
def Kept (f : Flow) (msg_id : UInt64) : Prop :=
  f.Live msg_id ∨ f.Acked msg_id ∨ f.Republished msg_id

/-! ### How the containers change -/

theorem Redelivered.append {queue : List Message} (h : Redelivered queue msg_id) (m : Message) :
    Redelivered (queue ++ [m]) msg_id := by
  obtain ⟨m', hm', h⟩ := h
  exact ⟨m', List.mem_append_left _ hm', h⟩

theorem Among.append {ms : List Message} (h : Among ms msg_id) (m : Message) :
    Among (ms ++ [m]) msg_id := by
  obtain ⟨m', hm', h⟩ := h
  exact ⟨m', List.mem_append_left _ hm', h⟩

/-- When a delivery is removed, its copy was the one in flight, or another still is. -/
theorem Flying.clear {i : DeliveryKey → Option InFlight} (h : Flying i msg_id) (key : DeliveryKey) :
    Flying (Function.update i key none) msg_id ∨
      ∃ entry, i key = some entry ∧ entry.msg.msg_id = msg_id := by
  obtain ⟨key', entry, hentry, hid⟩ := h
  by_cases hk : key' = key
  · subst hk
    exact .inr ⟨entry, hentry, hid⟩
  · exact .inl ⟨key', entry, by simpa [hk] using hentry, hid⟩

/-! ## The invariant -/

/-- What the invariant needs of the environment of a move. -/
structure Keeps (e : Env) (f : Flow) : Prop where
  /-- A new message has no failure behind it. -/
  offers : ∀ m, e.offers m → m.retry_count = 0
  /-- Deliveries are acknowledged on request. -/
  acks : ∀ key, e.acks key → f.Acked key.1
  /-- A redelivered copy has a target when it is routed. -/
  targets : e.routing → ∀ m, f.hand = .popped m → 0 < m.retry_count → e.targets m.topic ≠ []

/-- The dead letter of a copy that was dispatched. -/
def Letter (trace : List Event) (m : Message) : Prop :=
  ∃ d t, .dispatched d t ∈ trace ∧ m.msg_id = d.msg_id ∧ m.topic = dlqPrefix ++ d.topic ∧
    m.body = d.body

/-- The invariant. -/
structure Safe (f : Flow) : Prop where
  /-- Deliveries are filed under their message and client. -/
  filed : f.Filed
  /-- No copy has a negative count. -/
  nonneg : f.Forall fun m => 0 ≤ m.retry_count
  /-- What is in flight was dispatched. -/
  flying : ∀ key entry, f.inFlight key = some entry → ∃ t, .dispatched entry.msg t ∈ f.trace
  /-- What the DLQ logger is going to republish is a dead letter. -/
  letters : ∀ m ∈ f.dlq ++ f.logger.toList, Letter f.trace m
  /-- What was dispatched is kept. -/
  kept : ∀ m t, .dispatched m t ∈ f.trace → f.Kept m.msg_id

/-- More history keeps a dead letter one. -/
theorem Letter.mono {trace trace' : List Event} {m : Message} (h : Letter trace m)
    (hsub : trace <+: trace') : Letter trace' m := by
  obtain ⟨d, t, hd, h⟩ := h
  exact ⟨d, t, hsub.subset hd, h⟩

/-- A failed delivery's message has a failure behind it when it is back in the queue. -/
theorem Safe.requeueMsg_pos (h : f.Safe) {key : DeliveryKey} {entry : InFlight}
    (hentry : f.inFlight key = some entry) : 0 < entry.requeueMsg.retry_count := by
  have hcount := (h.filed key entry hentry).2
  have hpos : 0 ≤ entry.msg.retry_count := h.nonneg.inFlight key entry hentry
  simp only [InFlight.requeueMsg]
  omega

/-- A copy that cannot vanish is there after a move, or is not needed any more. -/
theorem Live.move (h : f.Live msg_id) (hs : f.Safe) (he : Keeps e f) (hmove : Move e f g) :
    g.Kept msg_id := by
  cases hmove with
  | stay | note => exact .inl h
  | enqueue m hm =>
    rcases h with h | h
    · exact .inl (.inl (h.append m))
    · exact .inl (.inr h)
  | ack key hkey =>
    rcases h with h | h | h | h
    · exact .inl (.inl h)
    · exact .inl (.inr (.inl h))
    · rcases h.clear key with h | ⟨entry, hentry, rfl⟩
      · exact .inl (.inr (.inr (.inl h)))
      · -- The delivery is acknowledged by a frame of a client.
        obtain ⟨c, hc⟩ := he.acks key hkey
        rw [(hs.filed key entry hentry).1] at hc
        exact .inr (.inl ⟨c, hc⟩)
    · exact .inl (.inr (.inr (.inr h)))
  | requeue key entry hkey hentry hretry =>
    rcases h with h | h | h | h
    · exact .inl (.inl (h.append _))
    · exact .inl (.inr (.inl h))
    · rcases h.clear key with h | ⟨entry', hentry', rfl⟩
      · exact .inl (.inr (.inr (.inl h)))
      · obtain rfl := Option.some.inj (hentry.symm.trans hentry')
        exact .inl (.inl ⟨entry.requeueMsg, by simp, rfl, hs.requeueMsg_pos hentry⟩)
    · exact .inl (.inr (.inr (.inr h)))
  | deadLetter key entry hkey hentry hretry =>
    rcases h with h | h | h | h | h
    · exact .inl (.inl h)
    · exact .inl (.inr (.inl h))
    · rcases h.clear key with h | ⟨entry', hentry', rfl⟩
      · exact .inl (.inr (.inr (.inl h)))
      · obtain rfl := Option.some.inj (hentry.symm.trans hentry')
        exact .inl (.inr (.inr (.inr (.inl ⟨entry.dlqMsg, by simp, rfl⟩))))
    · exact .inl (.inr (.inr (.inr (.inl (h.append _)))))
    · exact .inl (.inr (.inr (.inr (.inr h))))
  | pop m rest hhand hqueue =>
    rcases h with ⟨m', hm', hid, hretry⟩ | h | h
    · rcases List.mem_cons.mp (hqueue ▸ hm') with rfl | hrest
      · exact .inl (.inr (.inl ⟨hid, hretry⟩))
      · exact .inl (.inl ⟨m', hrest, hid, hretry⟩)
    · simp [hhand, Held] at h
    · exact .inl (.inr (.inr h))
  | drop m hrouting hhand hnone =>
    rcases h with h | h | h
    · exact .inl (.inl h)
    · -- A message with a failure behind it is not dropped: it has a target.
      rw [hhand] at h
      exact absurd hnone (he.targets hrouting m hhand h.2)
    · exact .inl (.inr (.inr h))
  | route m t todo hrouting hhand hperm =>
    rcases h with h | h | h
    · exact .inl (.inl h)
    · rw [hhand] at h
      exact .inl (.inr (.inl h.1))
    · exact .inl (.inr (.inr h))
  | track m t todo deadline hhand =>
    -- What is tracked is in flight, whatever its entry replaces.
    have htracked : ∀ {id : UInt64}, m.msg_id = id → Flying (Function.update f.inFlight
        (m.msg_id, t.client_id) (some ⟨m, t.client_id, deadline, m.retry_count⟩)) id :=
      fun hid => ⟨(m.msg_id, t.client_id), _, Function.update_self .., hid⟩
    rcases h with h | h | ⟨key, entry, hentry, hid⟩ | h
    · exact .inl (.inl h)
    · rw [hhand] at h
      exact .inl (.inr (.inr (.inl (htracked h))))
    · -- an entry that is overwritten is one of the same message
      refine .inl (.inr (.inr (.inl ?_)))
      by_cases hk : key = (m.msg_id, t.client_id)
      · have hfst := congrArg Prod.fst ((hs.filed key entry hentry).1.symm.trans hk)
        exact htracked (hfst.symm.trans hid)
      · exact ⟨key, entry, by simpa [hk] using hentry, hid⟩
    · exact .inl (.inr (.inr (.inr h)))
  | sendWritten m t todo n hhand | sendGone m t todo hhand =>
    rcases h with h | h | h
    · exact .inl (.inl h)
    · simp [hhand, Held] at h
    · exact .inl (.inr (.inr h))
  | logPop m rest hlogger hdlq =>
    rcases h with h | h | h | ⟨m', hm', hid⟩ | h
    · exact .inl (.inl h)
    · exact .inl (.inr (.inl h))
    · exact .inl (.inr (.inr (.inl h)))
    · rcases List.mem_cons.mp (hdlq ▸ hm') with rfl | hrest
      · exact .inl (.inr (.inr (.inr (.inr ⟨m', by simp, hid⟩))))
      · exact .inl (.inr (.inr (.inr (.inl ⟨m', hrest, hid⟩))))
    · simp [hlogger, Among] at h
  | republish m hlogger =>
    rcases h with h | h | h | h | ⟨m', hm', hid⟩
    · exact .inl (.inl (h.append m))
    · exact .inl (.inr (.inl h))
    · exact .inl (.inr (.inr (.inl h)))
    · exact .inl (.inr (.inr (.inr (.inl h))))
    · obtain rfl : m' = m := by simpa [hlogger] using hm'
      -- What is republished is the dead letter of a delivery.
      obtain ⟨d, t, hd, hdid, htopic, hbody⟩ := hs.letters m' (by simp [hlogger])
      exact .inr (.inr ⟨m', d, t, by simp, by simp [hd], hdid.symm.trans hid, hid, htopic, hbody⟩)

/-- What is kept stays kept. -/
theorem Kept.move (h : f.Kept msg_id) (hs : f.Safe) (he : Keeps e f) (hmove : Move e f g) :
    g.Kept msg_id := by
  have hsub := hmove.trace_extends.subset
  rcases h with h | ⟨c, hc⟩ | ⟨m, d, t, hm, hd, h⟩
  · exact h.move hs he hmove
  · exact .inr (.inl ⟨c, hsub hc⟩)
  · exact .inr (.inr ⟨m, d, t, hsub hm, hsub hd, h⟩)

/-- What is in flight after a move was dispatched. -/
theorem Safe.flying_move (hs : f.Safe) (hmove : Move e f g) {key : DeliveryKey} {entry : InFlight}
    (hentry : g.inFlight key = some entry) : ∃ t, .dispatched entry.msg t ∈ g.trace := by
  have hold : ∀ entry, f.inFlight key = some entry → ∃ t, .dispatched entry.msg t ∈ g.trace := by
    intro entry hentry
    obtain ⟨t, ht⟩ := hs.flying key entry hentry
    exact ⟨t, hmove.trace_extends.subset ht⟩
  cases hmove with
  | ack | requeue | deadLetter => exact hold entry (eq_some_of_update_none hentry)
  | track m t todo deadline hhand =>
    rcases eq_or_eq_some_of_update hentry with ⟨-, rfl⟩ | hentry
    · exact ⟨t, by simp⟩
    · exact hold entry hentry
  | _ => exact hold entry hentry

/-- What the DLQ logger is going to republish after a move is a dead letter. -/
theorem Safe.letters_move (hs : f.Safe) (hmove : Move e f g) {m : Message}
    (hm : m ∈ g.dlq ++ g.logger.toList) : Letter g.trace m := by
  rcases hmove.letters hm with hm | ⟨key, entry, hentry, rfl⟩
  · exact (hs.letters m hm).mono hmove.trace_extends
  · obtain ⟨t, ht⟩ := hs.flying key entry hentry
    exact ⟨entry.msg, t, hmove.trace_extends.subset ht, rfl, rfl, rfl⟩

/-- What is dispatched by a move is in flight after it. -/
theorem kept_of_dispatched (hs : f.Safe) (he : Keeps e f) (hmove : Move e f g) {m : Message}
    {t : Target} (hm : .dispatched m t ∈ g.trace) : g.Kept m.msg_id := by
  have hold : .dispatched m t ∈ f.trace → g.Kept m.msg_id := fun hm =>
    (hs.kept m t hm).move hs he hmove
  cases hmove with
  | note x hx => exact hold (mem_of_note hx rfl hm)
  | track m' t' todo deadline hhand =>
    rcases List.mem_append.mp hm with hm | hm
    · exact hold hm
    · obtain ⟨rfl, rfl⟩ : m = m' ∧ t = t' := by simpa using hm
      exact .inl (.inr (.inr (.inl ⟨_, _, Function.update_self .., rfl⟩)))
  | stay | ack | pop | sendGone | logPop => exact hold hm
  | enqueue | requeue | deadLetter | drop | route | sendWritten | republish =>
    exact hold (by simpa using hm)

/-- A move keeps the invariant. -/
theorem Safe.move (hs : f.Safe) (he : Keeps e f) (hmove : Move e f g) : g.Safe where
  filed := hs.filed.move hmove
  nonneg := hs.nonneg.move hs.filed hmove (fun m hm _ => (he.offers m hm).ge)
    (fun m hm _ => by simp only; omega) (fun _ _ _ => le_rfl)
  flying _ _ := hs.flying_move hmove
  letters _ := hs.letters_move hmove
  kept _ _ := kept_of_dispatched hs he hmove

end Flow

/-! ## Runs of the broker -/

variable {cfg : Config} {s t : State} {a : Action} {as : List Action}

/-- When a redelivered copy is routed, a group of a pattern that matches its topic has a member. -/
def redeliveryHasSubscriber (s : State) (a : Action) : Bool :=
  match a, s.dispatcher with
  | .route _, .popped m => m.retry_count ≤ 0 || s.router.hasSubscriber m.topic
  | _, _ => true

/-- The invariant of the whole state. -/
structure Safe (s : State) : Prop where
  /-- The copies are kept. -/
  flow : s.flow.Safe
  /-- A message that is not queued yet has no failure behind it. -/
  staged : ∀ m, s.Staged m → m.retry_count = 0
  /-- A thread that acknowledges does so on a client's request. -/
  acks : ∀ (k : ℕ) (c : Conn) (msg_id : UInt64), s.conns[k]? = some c →
    c.pc = .ackEngine msg_id → .acked c.sock msg_id ∈ s.trace

/-- The broker starts with the invariant. -/
theorem safe_init (cfg : Config) : Safe (State.init cfg) where
  flow :=
    { filed := by simp [Flow.Filed, State.flow, State.init, AckEngine.empty]
      nonneg := by
        constructor <;> simp [State.flow, State.init, SafeQueue.empty, AckEngine.empty,
          State.deadLetterInHand]
      flying := by simp [State.flow, State.init, AckEngine.empty]
      letters := by simp [State.flow, State.init, SafeQueue.empty, State.deadLetterInHand]
      kept := by simp [State.flow, State.init] }
  staged := by simp [State.Staged, State.init, LoggerPc.message]
  acks := by simp [State.init]

/-- The delivery that an action acknowledges is one that its client asked for. -/
theorem Safe.acked_of_acking (hs : Safe s) {key : DeliveryKey} (h : s.acking a = some key) :
    s.flow.Acked key.1 := by
  cases a with
  | client n =>
    obtain ⟨c, hc, hkey⟩ := Option.bind_eq_some_iff.mp h
    cases hpc : c.pc with
    | ackEngine msg_id =>
      obtain rfl : (msg_id, c.sock) = key := by simpa [hpc] using hkey
      exact ⟨c.sock, hs.acks n c msg_id hc hpc⟩
    | _ => simp [hpc] at hkey
  | _ => simp [State.acking] at h

/-- A step that routes no redelivered copy into the void keeps the invariant. -/
theorem Safe.step (hs : Safe s) (hok : redeliveryHasSubscriber s a = true)
    (h : s.step cfg a = some t) : Safe t where
  flow := by
    refine hs.flow.move ⟨fun m hm => ?_, fun key hkey => ?_, ?_⟩ (step_move h)
    · exact hs.staged m (staged_of_offered hm)
    · exact hs.acked_of_acking hkey
    · rintro ⟨targets, rfl⟩ m hhand hretry
      have hhand : s.dispatcher = .popped m := hhand
      have hsub : m.retry_count ≤ 0 ∨ s.router.hasSubscriber m.topic = true := by
        simpa [redeliveryHasSubscriber, hhand] using hok
      exact TopicRouter.targets_ne_nil (hsub.resolve_left (not_le.mpr hretry))
  staged := staged_retry_count h hs.staged
  acks k c msg_id hk hpc := by
    have hsub := (step_move h).trace_extends.subset
    cases step_came h hk with
    | same hk => exact hsub (hs.acks k c msg_id hk hpc)
    | elsewhere _ hacking => simp [hpc, ClientPc.acking] at hacking
    | ack msg_id' type payload ha htype c₀ hk hsock hpc' htrace =>
      obtain rfl : msg_id = msg_id' := by simpa [hpc] using hpc'
      simp [htrace]
    | publish m hpc' | append m c₀ ha hk hpc₀ hpc' | ackEngine msg_id' c₀ ha hk hpc₀ hsock hpc' =>
      simp [hpc] at hpc'

/-- Once a message was dispatched, the broker holds a copy of it, or a client has acknowledged it,
or its dead letter was republished: in every run in which a redelivered copy has a subscriber when
it is routed. -/
theorem at_least_once
    (hrun : Run (State.step cfg) (redeliveryHasSubscriber · ·) (State.init cfg) as t)
    {m : Message} {target : Target} (hm : .dispatched m target ∈ t.trace) :
    t.flow.HasCopy m.msg_id ∨ t.flow.Acked m.msg_id ∨ t.flow.Republished m.msg_id := by
  have hsafe : Safe t :=
    hrun.invariant (fun s a t hs hok h => hs.step hok h) (safe_init cfg)
  rcases hsafe.flow.kept m target hm with h | h
  · exact .inl h.hasCopy
  · exact .inr h

/-- A run in which one of two consumers disconnects before it answers, and the other gets the
message a second time. -/
def secondConsumer : List Action :=
  [.accept 5, .accept 6, .accept 7, .frame 0 0x02 0 [0, 1, 0x74, 0, 0],
    .frame 2 0x02 0 [0, 1, 0x74, 0, 0], .frame 1 0x01 0 [0, 1, 0x74], .client 1, .client 1, .pop,
    .route [⟨[0x74], ascii "__unique_7", 7⟩, ⟨[0x74], ascii "__unique_5", 5⟩], .track 0, .send,
    .track 0, .send, .hangup 0, .client 0, .client 0, .client 0, .client 0, .client 0, .pop,
    .route [⟨[0x74], ascii "__unique_7", 7⟩]]

/-- In that run the message is kept. -/
theorem at_least_once_secondConsumer :
    ∃ t, Run (State.step ⟨4, 3, 5000⟩) (redeliveryHasSubscriber · ·) (State.init ⟨4, 3, 5000⟩)
        secondConsumer t ∧
      .dispatched ⟨1, [0x74], [], 0, 0⟩ ⟨[0x74], ascii "__unique_5", 5⟩ ∈ t.trace ∧
      (t.flow.HasCopy 1 ∨ t.flow.Acked 1 ∨ t.flow.Republished 1) := by
  obtain ⟨t, ht, hm⟩ := (Option.any_eq_true _ _).mp
    (show (execChecked (State.step ⟨4, 3, 5000⟩) (redeliveryHasSubscriber · ·)
      (State.init ⟨4, 3, 5000⟩) secondConsumer).any
      (fun t => .dispatched ⟨1, [0x74], [], 0, 0⟩ ⟨[0x74], ascii "__unique_5", 5⟩ ∈ t.trace) = true
      by decide)
  have hm := of_decide_eq_true hm
  exact ⟨t, run_of_execChecked ht, hm, at_least_once (run_of_execChecked ht) hm⟩

/-- A run in which the only consumer disconnects before it answers. -/
def onlyConsumer : List Action :=
  [.accept 5, .accept 6, .frame 0 0x02 0 [0, 1, 0x74, 0, 0], .frame 1 0x01 0 [0, 1, 0x74],
    .client 1, .client 1, .pop, .route [⟨[0x74], ascii "__unique_5", 5⟩], .track 0, .send,
    .hangup 0, .client 0, .client 0, .client 0, .client 0, .client 0, .pop, .route []]

/-- In that run the message was dispatched, and it is gone: the copy that the disconnect put back on
the queue was dropped. -/
theorem redelivery_dropped :
    ∃ t, exec (State.step ⟨4, 3, 5000⟩) (State.init ⟨4, 3, 5000⟩) onlyConsumer = some t ∧
      .dispatched ⟨1, [0x74], [], 0, 0⟩ ⟨[0x74], ascii "__unique_5", 5⟩ ∈ t.trace ∧
      ¬(t.flow.HasCopy 1 ∨ t.flow.Acked 1 ∨ t.flow.Republished 1) := by
  obtain ⟨t, ht, hend⟩ := (Option.any_eq_true _ _).mp
    (show (exec (State.step ⟨4, 3, 5000⟩) (State.init ⟨4, 3, 5000⟩) onlyConsumer).any
      (fun t => (t.main_queue.queue = [] ∧ t.dispatcher = .idle ∧ t.dlq.queue = [] ∧
        t.logger = .idle) ∧ t.engine.in_flight.entries = [] ∧
        .dispatched ⟨1, [0x74], [], 0, 0⟩ ⟨[0x74], ascii "__unique_5", 5⟩ ∈ t.trace ∧
        t.trace.all fun e => match e with
          | .acked .. | .republished .. => false
          | _ => true) = true
      by decide)
  obtain ⟨⟨hqueue, hhand, hdlq, hlogger⟩, hflight, hm, hevents⟩ := of_decide_eq_true hend
  refine ⟨t, ht, hm, ?_⟩
  have hevents := List.all_eq_true.mp hevents
  rintro (h | ⟨c, hc⟩ | ⟨m, d, target, hm, -⟩)
  · simp [Flow.HasCopy, Flow.Among, Flow.Flying, State.flow, hqueue, hhand, hdlq, hlogger, hflight,
      State.deadLetterInHand, AList.lookup] at h
  · exact absurd (hevents _ hc) (by simp)
  · exact absurd (hevents _ hm) (by simp)

end EventQueue.Broker
