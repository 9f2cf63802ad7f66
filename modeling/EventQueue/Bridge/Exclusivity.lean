import EventQueue.Bridge.Serving

/-!
# Consumer groups behind the gateway

The broker sends a message to one member of a group, but all WebSocket clients are one member: the
gateway keeps topics without groups, and hands every event that comes in to all clients with a
pattern that matches. So a group is exclusive only as long as no two clients that take an event
compete in it (`unrivalled`), and `consumers_exclusive` is that this is enough in every run.
-/

namespace EventQueue.Bridge

open Gateway (Frame MsgType Ws WsServer ClientMessage)
open Transition (Run exec run_of_execChecked execChecked)

variable {cfg : Config} {s t : State} {a : Action} {as : List Action} {file : Bytes}
  {order : List Broker.Message} {w : Ws} {p g : JsString}

namespace State

/-- The one thing that a client has requested is a pattern in a group. -/
def sole (s : State) (w : Ws) (p g : JsString) : Prop :=
  (w, p, g) ∈ s.requests ∧ ∀ r ∈ s.requests, r.1 = w → r.2 = (p, g)

instance : Decidable (s.sole w p g) := inferInstanceAs (Decidable (_ ∧ _))

/-- An open client competes in a group: it has requested a pattern there, and nothing else. -/
def competes (s : State) (w : Ws) (p g : JsString) : Prop :=
  s.ws.isOpen w = true ∧ s.sole w p g

instance : Decidable (s.competes w p g) := inferInstanceAs (Decidable (_ ∧ _))

/-- No two clients compete in a group for the events of a topic. -/
def unrivalled (s : State) (topic : JsString) : Prop :=
  ∀ r ∈ s.requests, ∀ r' ∈ s.requests, r.2 = r'.2 → r.2.2 ≠ [] →
    Gateway.topicMatches r.2.1 topic = true → s.competes r.1 r.2.1 r.2.2 →
    s.competes r'.1 r.2.1 r.2.2 → r.1 = r'.1

instance {topic : JsString} : Decidable (s.unrivalled topic) :=
  inferInstanceAs (Decidable (∀ r ∈ s.requests, ∀ r' ∈ s.requests, _))

/-- In every group at most one of the competing clients is sent the events of one dispatch. -/
def Exclusive (s : State) : Prop :=
  ∀ p g w w', g ≠ [] → s.competes w p g → s.competes w' p g →
    ∀ e ∈ s.handled, ∀ e' ∈ s.handled, e.dispatch = e'.dispatch →
      w ∈ e.sent → w' ∈ e'.sent → w = w'

end State

/-- An event is handled only when it is dropped or no two clients compete for it. -/
def unrivalledHandling (s : State) : Action → Bool
  | .handle => s.frames.head?.all fun f =>
      f.1.type ≠ MsgType.eventData.toByte ||
        s.ws.suppresses (Gateway.decodeEventPayload f.1.payload).1 f.1.msgId ||
        decide (s.unrivalled (Gateway.decodeEventPayload f.1.payload).1)
  | _ => true

/-! ## What a step leaves of a competing client -/

/-- A step only adds requests. -/
theorem Serves.requests_subset (h : Serves cfg s a t) {r : Ws × JsString × JsString}
    (hr : r ∈ s.requests) : r ∈ t.requests := by
  cases h with
  | subscribed w topic group topics ha htopic hlookup hws hrequests =>
    rw [hrequests]
    exact List.mem_append_left _ hr
  | nothing | connected | closing | closed | event | other =>
    rename_i hrequests _ _
    rw [hrequests]
    exact hr

/-- A client that competes after a step, and had requested something before, competed before. -/
theorem Serves.competes (hs : Served cfg s) (h : Serves cfg s a t) {p' g' : JsString}
    (hw : (w, p', g') ∈ s.requests) (hcompetes : t.competes w p g) : s.competes w p g := by
  obtain ⟨hopen, -, hsole⟩ := hcompetes
  refine ⟨h.isOpen (hs.known _ _ _ hw) hopen, ?_, fun r hr => hsole r (h.requests_subset hr)⟩
  have heq : (p', g') = (p, g) := hsole _ (h.requests_subset hw) rfl
  obtain ⟨rfl, rfl⟩ : p' = p ∧ g' = g := by simpa using heq
  exact hw

/-- A client that an event is sent to is open, and has requested a pattern that matches. -/
theorem requested_of_mem_sends (hs : Served cfg s) {topic : JsString} {msgId : UInt64}
    {body : Bytes}
    (hw : w ∈ (s.ws.dispatchEvent cfg.ringSize topic msgId body).2.map Prod.fst) :
    s.ws.suppresses topic msgId = false ∧
      ∃ p g, (w, p, g) ∈ s.requests ∧ Gateway.topicMatches p topic = true := by
  cases hsuppresses : s.ws.suppresses topic msgId with
  | true => simp [WsServer.dispatchEvent, hsuppresses] at hw
  | false =>
    have hfan : w ∈ s.ws.fanOut topic := by
      simpa [WsServer.dispatchEvent, hsuppresses] using hw
    obtain ⟨-, pattern, hmatch, hlists⟩ := WsServer.mem_fanOut.mp hfan
    obtain ⟨g, hmem⟩ := hs.requested w pattern ((hs.indexed.inverse w pattern).mpr hlists)
    exact ⟨rfl, pattern, g, hmem, hmatch⟩

/-! ## Every run -/

/-- What a run keeps besides `Served`. -/
structure Exclusively (s : State) : Prop where
  /-- Whoever was sent an event had requested something. -/
  sent : ∀ e ∈ s.handled, ∀ w ∈ e.sent, ∃ p g, (w, p, g) ∈ s.requests
  /-- No group's events were sent to two competing clients. -/
  exclusive : s.Exclusive

/-- A step that handles no event keeps that. -/
theorem Exclusively.of_handled_eq (hs : Served cfg s) (hex : Exclusively s) (h : Serves cfg s a t)
    (hhandled : t.handled = s.handled) : Exclusively t := by
  constructor
  · rw [hhandled]
    intro e he w hw
    obtain ⟨p, g, hmem⟩ := hex.sent e he w hw
    exact ⟨p, g, h.requests_subset hmem⟩
  · intro p g w w' hg hw hw' e he e' he' hdispatch hsent hsent'
    rw [hhandled] at he he'
    obtain ⟨_, _, hmem⟩ := hex.sent e he w hsent
    obtain ⟨_, _, hmem'⟩ := hex.sent e' he' w' hsent'
    exact hex.exclusive p g w w' hg (h.competes hs hmem hw) (h.competes hs hmem' hw') e he e' he'
      hdispatch hsent hsent'

/-- So does a step that handles an event for which no two clients compete. -/
theorem Exclusively.step (hs : Served cfg s) (hex : Exclusively s)
    (hok : unrivalledHandling s a = true) (h : s.step cfg a = some t) : Exclusively t := by
  have hserves := step_serves h
  cases hserves with
  | nothing | connected | subscribed | closing | closed | other =>
    rename_i hhandled
    exact hex.of_handled_eq hs (step_serves h) hhandled
  | event f dispatch frames ha hframes htype hws hrequests haccepted hhandled =>
    subst ha
    rw [WsServer.dispatchEvent_fst] at hws
    have hcompetes : ∀ w p g, t.competes w p g ↔ s.competes w p g := by
      intro w p g
      simp only [State.competes, State.sole, hrequests, hws]
      rfl
    -- Whoever competes with a client that the new event is sent to is that client.
    have hnew : ∀ p g w w', g ≠ [] → s.competes w p g → s.competes w' p g →
        w' ∈ (s.ws.dispatchEvent cfg.ringSize (Gateway.decodeEventPayload f.payload).1 f.msgId
          (Gateway.decodeEventPayload f.payload).2).2.map Prod.fst → w = w' := by
      intro p g w w' hg hw hw' hsent
      obtain ⟨hsuppresses, p', g', hmem, hmatch⟩ := requested_of_mem_sends hs hsent
      have hpattern : (p', g') = (p, g) := hw'.2.2 _ hmem rfl
      obtain ⟨rfl, rfl⟩ : p' = p ∧ g' = g := by simpa using hpattern
      have hunrivalled : s.unrivalled (Gateway.decodeEventPayload f.payload).1 := by
        simpa [unrivalledHandling, hframes, htype, hsuppresses] using hok
      exact hunrivalled _ hw.2.1 _ hw'.2.1 rfl hg hmatch hw hw'
    constructor
    · rw [hhandled, hrequests]
      intro e he w hw
      rcases List.mem_append.mp he with he | he
      · exact hex.sent e he w hw
      · obtain rfl := List.mem_singleton.mp he
        obtain ⟨-, p, g, hmem, -⟩ := requested_of_mem_sends hs hw
        exact ⟨p, g, hmem⟩
    · intro p g w w' hg hw hw' e he e' he' hdispatch hsent hsent'
      rw [hhandled] at he he'
      rw [hcompetes] at hw hw'
      rcases List.mem_append.mp he' with he' | he'
      · rcases List.mem_append.mp he with he | he
        · exact hex.exclusive p g w w' hg hw hw' e he e' he' hdispatch hsent hsent'
        · obtain rfl := List.mem_singleton.mp he
          exact (hnew p g w' w hg hw' hw hsent).symm
      · obtain rfl := List.mem_singleton.mp he'
        exact hnew p g w w' hg hw hw' hsent'

/-- Among the open clients whose one subscription is a pattern in a named group, at most one is sent
the event of a dispatch: in every run in which an event that is not dropped finds no two of them
with a pattern that matches its topic. -/
theorem consumers_exclusive (hstart : State.start cfg file order = some s)
    (hrun : Run (State.step cfg) (fun s a => unrivalledHandling s a = true) s as t) :
    t.Exclusive := by
  have hboth : Served cfg t ∧ Exclusively t := by
    refine hrun.invariant (I := fun s => Served cfg s ∧ Exclusively s) ?_ ?_
    · rintro s a t ⟨hs, hex⟩ hok h
      exact ⟨hs.step h, hex.step hs hok h⟩
    · refine ⟨served_start hstart, ?_⟩
      obtain ⟨broker, -, rfl⟩ := Option.map_eq_some_iff.mp hstart
      refine ⟨fun e he => ?_, fun p g w w' hg hw hw' e he => ?_⟩ <;> cases he
  exact hboth.2.exclusive

/-- Two clients subscribe to a topic in groups `g` and `h`, another client of the broker publishes,
and the gateway handles what the broker sends for one target. -/
def twoGroups : List Action :=
  [.wsConnect, .wsConnect, .dial 7, .connect, .wsMessage 0 (.subscribe [0x74] [0x67]),
    .wsMessage 1 (.subscribe [0x74] [0x68]), .upstream 0, .upstream 0, .broker (.accept 8),
    .broker (.frame 1 0x01 0 [0, 1, 0x74, 0x41]), .broker (.client 1), .broker (.client 1),
    .broker .pop, .broker (.route [⟨[0x74], [0x67], 7⟩, ⟨[0x74], [0x68], 7⟩]), .broker (.track 0),
    .broker .send, .data 21, .handle]

/-- Each of the two is alone in its group, and both are sent the event. -/
theorem consumers_exclusive_twoGroups :
    ∃ t, Run (State.step (.ofBroker ⟨4, 3, 5000⟩)) (fun s a => unrivalledHandling s a = true)
        (State.beside (.init ⟨4, 3, 5000⟩)) twoGroups t ∧
      t.handled.map Handled.sent = [[0, 1]] ∧ t.competes 0 [0x74] [0x67] ∧ t.Exclusive := by
  obtain ⟨t, ht, hend⟩ := (Option.any_eq_true _ _).mp
    (show (execChecked (State.step (.ofBroker ⟨4, 3, 5000⟩))
      (fun s a => unrivalledHandling s a = true) (State.beside (.init ⟨4, 3, 5000⟩))
      twoGroups).any (fun t => t.handled.map Handled.sent = [[0, 1]] ∧
        t.competes 0 [0x74] [0x67]) = true by decide)
  obtain ⟨hsent, hcompetes⟩ := of_decide_eq_true hend
  have hrun := run_of_execChecked ht
  exact ⟨t, hrun, hsent, hcompetes, consumers_exclusive (State.start_nil _) hrun⟩

/-- Two clients subscribe to a topic in one group. -/
def oneGroup : List Action :=
  [.wsConnect, .wsConnect, .dial 7, .connect, .wsMessage 0 (.subscribe [0x74] [0x67]),
    .wsMessage 1 (.subscribe [0x74] [0x67]), .upstream 0, .upstream 0, .broker (.accept 8),
    .broker (.frame 1 0x01 0 [0, 1, 0x74, 0x41]), .broker (.client 1), .broker (.client 1),
    .broker .pop, .broker (.route [⟨[0x74], [0x67], 7⟩]), .broker (.track 0), .broker .send,
    .data 21, .handle]

/-- The broker sends the message to one member of the group, and the gateway to both clients. -/
theorem group_not_exclusive :
    ∃ t, exec (State.step (.ofBroker ⟨4, 3, 5000⟩)) (State.beside (.init ⟨4, 3, 5000⟩))
        oneGroup = some t ∧
      .routed ⟨1, [0x74], [0x41], 0, 0⟩ [⟨[0x74], [0x67], 7⟩] ∈ t.broker.trace ∧
      t.competes 0 [0x74] [0x67] ∧ t.competes 1 [0x74] [0x67] ∧
      t.handled.map Handled.sent = [[0, 1]] ∧ ¬t.Exclusive := by
  obtain ⟨t, ht, hend⟩ := (Option.any_eq_true _ _).mp
    (show (exec (State.step (.ofBroker ⟨4, 3, 5000⟩)) (State.beside (.init ⟨4, 3, 5000⟩))
      oneGroup).any (fun t =>
        .routed ⟨1, [0x74], [0x41], 0, 0⟩ [⟨[0x74], [0x67], 7⟩] ∈ t.broker.trace ∧
        t.competes 0 [0x74] [0x67] ∧ t.competes 1 [0x74] [0x67] ∧
        t.handled.map Handled.sent = [[0, 1]]) = true by decide)
  obtain ⟨hrouted, hzero, hone, hsent⟩ := of_decide_eq_true hend
  refine ⟨t, ht, hrouted, hzero, hone, hsent, fun hexclusive => ?_⟩
  obtain ⟨e, he, heq⟩ := List.mem_map.mp (hsent ▸ List.mem_singleton_self [0, 1])
  exact absurd (hexclusive _ _ 0 1 (by decide) hzero hone e he e he rfl (by simp [heq])
    (by simp [heq])) (by decide)

end EventQueue.Bridge
