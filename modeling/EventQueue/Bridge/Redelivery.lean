import EventQueue.Bridge.Serving

/-!
# Redelivered events and the idempotency check

A broker that gets a NACK, or no answer, sends a message again, with its identifier. The gateway has
a window of the identifiers that it has let through, and knows nothing of what became of them.
`Judged` is what every record of a handled event says about the window; from it comes exactly when
an event reaches all clients that want it, and is dropped only after an acknowledgement.
-/

namespace EventQueue.Bridge

open Gateway (Frame MsgType Ws WsServer ClientMessage)
open Transition (Run exec run_of_exec)

variable {cfg : Config} {s t : State} {a : Action} {as : List Action} {file : Bytes}
  {order : List Broker.Message}

/-- What is asked of a handled event: it is sent to every client that wants it, and it is not
dropped unless a client has acknowledged its message. -/
def Handled.Reaches (h : Handled) : Prop :=
  (∀ w ∈ h.wanted, w ∈ h.sent) ∧ (h.suppressed = true → h.acked = true)

instance (h : Handled) : Decidable h.Reaches := inferInstanceAs (Decidable (_ ∧ _))

/-- The clients that want an event are those that the loop of `#dispatchEvent` reaches. -/
theorem mem_wanted_iff (hs : Served cfg s) {w : Ws} {topic : JsString} :
    w ∈ State.wanted s.ws topic ↔ w ∈ s.ws.fanOut topic := by
  have hopen : w ∈ s.ws.openClients ↔ s.ws.isOpen w = true := by
    simp only [WsServer.openClients, List.mem_filter, List.mem_range, and_iff_right_iff_imp]
    exact fun hw => hs.indexed.known w (hs.indexed.opened w hw)
  have hhas : ((s.ws.clientTopics.lookup w).getD OrderedSet.empty).elems.any
      (Gateway.topicMatches · topic) = true ↔
        ∃ pattern, Gateway.topicMatches pattern topic = true ∧ s.ws.Has w pattern := by
    rw [List.any_eq_true]
    unfold WsServer.Has
    cases s.ws.clientTopics.lookup w with
    | none => simp
    | some topics => simp [and_comm]
  rw [State.wanted, List.mem_filter, WsServer.mem_fanOut, hopen, hhas]
  simp only [hs.indexed.inverse]

/-- What the window decided about a handled event. -/
structure Judged (cfg : Config) (h : Handled) : Prop where
  /-- It was dropped when its identifier was in the window, and its topic was not exempt. -/
  suppressed : h.suppressed = true ↔
    WsServer.exempt h.topic = false ∧ h.msgId ∈ h.accepted.rtake cfg.ringSize
  /-- Then it was sent to nobody. -/
  dropped : h.suppressed = true → h.sent = []
  /-- Otherwise it was sent to every client that wanted it. -/
  passed : h.suppressed = false → ∀ w ∈ h.wanted, w ∈ h.sent

/-- The record of an event that is handled is judged by the window. -/
theorem judged_record (hs : Served cfg s) (f : Frame) (dispatch : ℕ) :
    Judged cfg (s.record f dispatch
      ((s.ws.dispatchEvent cfg.ringSize (Gateway.decodeEventPayload f.payload).1 f.msgId
        (Gateway.decodeEventPayload f.payload).2).2.map Prod.fst)) where
  suppressed := by
    simp only [State.record, WsServer.suppresses, Bool.and_eq_true, Bool.not_eq_true',
      hs.window.has_iff]
  dropped hdrop := by
    have hdrop : s.ws.suppresses (Gateway.decodeEventPayload f.payload).1 f.msgId = true := hdrop
    simp [State.record, WsServer.dispatchEvent, hdrop]
  passed hpass w hw := by
    have hpass : s.ws.suppresses (Gateway.decodeEventPayload f.payload).1 f.msgId = false := hpass
    have hfan := (mem_wanted_iff hs).mp hw
    simpa [State.record, WsServer.dispatchEvent, hpass] using hfan

/-- A step adds at most one record, which is judged. -/
theorem judged_of_step (hs : Served cfg s) (h : s.step cfg a = some t)
    (hall : ∀ e ∈ s.handled, Judged cfg e) : ∀ e ∈ t.handled, Judged cfg e := by
  cases step_serves h with
  | event f dispatch frames ha hframes htype hws hrequests haccepted hhandled =>
    rw [hhandled]
    intro e he
    rcases List.mem_append.mp he with he | he
    · exact hall e he
    · obtain rfl := List.mem_singleton.mp he
      exact judged_record hs f dispatch
  | nothing | connected | subscribed | closing | closed | other =>
    rename_i hhandled
    rw [hhandled]
    exact hall

/-- Every record of a run is judged. -/
theorem judged_of_run (hstart : State.start cfg file order = some s)
    (hrun : Run (State.step cfg) (fun _ _ => True) s as t) : ∀ e ∈ t.handled, Judged cfg e := by
  have hboth : Served cfg t ∧ ∀ e ∈ t.handled, Judged cfg e := by
    refine hrun.invariant (I := fun s => Served cfg s ∧ ∀ e ∈ s.handled, Judged cfg e) ?_ ?_
    · rintro s a t ⟨hs, hall⟩ - h
      exact ⟨hs.step h, judged_of_step hs h hall⟩
    · refine ⟨served_start hstart, ?_⟩
      obtain ⟨broker, -, rfl⟩ := Option.map_eq_some_iff.mp hstart
      intro e he
      cases he
  exact hboth.2

/-- An event reaches everyone who wants it, and is not dropped without an acknowledgement, exactly
when its topic is exempt, or its identifier is not among the last that were let through, or nobody
wants it and its message was acknowledged. -/
theorem redelivery_reaches (hstart : State.start cfg file order = some s)
    (hrun : Run (State.step cfg) (fun _ _ => True) s as t) (e : Handled) (he : e ∈ t.handled) :
    e.Reaches ↔ WsServer.exempt e.topic = true ∨ e.msgId ∉ e.accepted.rtake cfg.ringSize ∨
      e.wanted = [] ∧ e.acked = true := by
  have hjudged := judged_of_run hstart hrun e he
  cases hsuppressed : e.suppressed with
  | false =>
    have hreaches : e.Reaches :=
      ⟨hjudged.passed hsuppressed, fun h => by rw [hsuppressed] at h; cases h⟩
    refine ⟨fun _ => ?_, fun _ => hreaches⟩
    have hnot := mt hjudged.suppressed.mpr (by rw [hsuppressed]; decide)
    by_cases hexempt : WsServer.exempt e.topic = true
    · exact .inl hexempt
    · exact .inr (.inl fun hmem => hnot ⟨Bool.eq_false_iff.mpr hexempt, hmem⟩)
  | true =>
    obtain ⟨hexempt, hmem⟩ := hjudged.suppressed.mp hsuppressed
    -- A dropped event is sent to nobody, so nobody may want it.
    have hwanted : (∀ w ∈ e.wanted, w ∈ e.sent) ↔ e.wanted = [] := by
      rw [hjudged.dropped hsuppressed, List.eq_nil_iff_forall_not_mem]
      simp
    simp [Handled.Reaches, hwanted, hsuppressed, hexempt, hmem]

/-- A client subscribes to a topic, and gets its own event on it. -/
def delivered (topic : JsString) : List Action :=
  [.wsConnect, .dial 7, .connect, .wsMessage 0 (.subscribe topic []), .upstream 0,
    .wsMessage 0 (.publish topic [0x41]), .upstream 0, .broker (.client 0), .broker (.client 0),
    .broker .pop, .broker (.route [⟨topic.toUtf8, Broker.TopicRouter.groupKey [] 7, 7⟩]),
    .broker (.track 0), .broker .send, .data (20 + topic.length), .handle]

/-- The client rejects the event, and the broker sends it again. -/
def rejected (topic : JsString) : List Action :=
  delivered topic ++
    [.wsMessage 0 (.nack (some 1)), .upstream 0, .broker (.client 0), .broker (.client 0),
    .broker .pop, .broker (.route [⟨topic.toUtf8, Broker.TopicRouter.groupKey [] 7, 7⟩]),
    .broker (.track 0), .broker .send, .data (20 + topic.length), .handle]

/-- On a topic that is exempt, the event reaches the client when it is sent again. -/
theorem redelivery_reaches_chaosTopic :
    ∃ t e, Run (State.step (.ofBroker ⟨4, 3, 5000⟩)) (fun _ _ => True)
        (State.beside (.init ⟨4, 3, 5000⟩)) (rejected (JsString.ofString "chaos.t")) t ∧
      .failed (1, 7) ⟨⟨1, ascii "chaos.t", [0x41], 0, 0⟩, 7, 5000, 0⟩ ∈ t.broker.trace ∧
      e ∈ t.handled ∧ e.msgId = 1 ∧ e.dispatch = 2 ∧ e.wanted = [0] ∧ e.sent = [0] ∧ e.Reaches := by
  obtain ⟨t, ht, hend⟩ := (Option.any_eq_true _ _).mp
    (show (exec (State.step (.ofBroker ⟨4, 3, 5000⟩)) (State.beside (.init ⟨4, 3, 5000⟩))
      (rejected (JsString.ofString "chaos.t"))).any (fun t =>
        .failed (1, 7) ⟨⟨1, ascii "chaos.t", [0x41], 0, 0⟩, 7, 5000, 0⟩ ∈ t.broker.trace ∧
        (⟨JsString.ofString "chaos.t", 1, 2, [0], [0], false, false, []⟩ : Handled) ∈
          t.handled) = true by decide +kernel)
  obtain ⟨hfailed, hhandled⟩ := of_decide_eq_true hend
  have hrun := run_of_exec ht
  refine ⟨t, _, hrun, hfailed, hhandled, rfl, rfl, rfl, rfl, ?_⟩
  exact (redelivery_reaches (State.start_nil _) hrun _ hhandled).mpr (.inl (by decide))

/-- The delivery failed and the message was written to the gateway again, with its count raised, but
the gateway drops it: the client wants it, nobody has acknowledged it, and it is sent to nobody. -/
theorem rejected_event_dropped :
    ∃ t e, exec (State.step (.ofBroker ⟨4, 3, 5000⟩)) (State.beside (.init ⟨4, 3, 5000⟩))
        (rejected [0x74]) = some t ∧
      .failed (1, 7) ⟨⟨1, [0x74], [0x41], 0, 0⟩, 7, 5000, 0⟩ ∈ t.broker.trace ∧
      .written 0 ⟨1, [0x74], [0x41], 1, 0⟩ ∈ t.broker.trace ∧
      e ∈ t.handled ∧ e.msgId = 1 ∧ e.dispatch = 2 ∧ e.wanted = [0] ∧ e.sent = [] ∧
      e.suppressed = true ∧ e.acked = false ∧ ¬e.Reaches := by
  obtain ⟨t, ht, hend⟩ := (Option.any_eq_true _ _).mp
    (show (exec (State.step (.ofBroker ⟨4, 3, 5000⟩)) (State.beside (.init ⟨4, 3, 5000⟩))
      (rejected [0x74])).any (fun t =>
        .failed (1, 7) ⟨⟨1, [0x74], [0x41], 0, 0⟩, 7, 5000, 0⟩ ∈ t.broker.trace ∧
        .written 0 ⟨1, [0x74], [0x41], 1, 0⟩ ∈ t.broker.trace ∧
        (⟨[0x74], 1, 2, [0], [], true, false, [1]⟩ : Handled) ∈ t.handled) = true by decide)
  obtain ⟨hfailed, hwritten, hhandled⟩ := of_decide_eq_true hend
  exact ⟨t, _, ht, hfailed, hwritten, hhandled, rfl, rfl, rfl, rfl, rfl, rfl, by decide⟩

end EventQueue.Bridge
