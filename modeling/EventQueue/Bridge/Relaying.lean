import EventQueue.Bridge.Serving
import EventQueue.Bridge.Wire
import EventQueue.Broker.Membership

/-!
# What the gateway has told the broker

The subscriptions that have gone over a connection are those of the frames that the broker has taken
from it, and of the frames that are still under way (`State.sent`). `Relayed` relates them to what
the clients have requested: whatever has gone over the gateway's connection was requested, what was
requested since the connection came up has gone over it, and so has every topic that an open client
had requested before, at least without its group.
-/

namespace EventQueue.Bridge

open Broker (subscriptions)
open Gateway (Frame MsgType Turn TcpView Ws WsServer ClientMessage)
open BigEndian (length_be)
open Transition (Run)

/-! ## The frames -/

/-- The subscription that the broker reads from a frame. -/
def subscriptionOf (bytes : Bytes) : Option (Bytes × Bytes) :=
  let sub := Broker.decodeSubscribe (bytes.drop Broker.headerSize)
  if Broker.MessageType.ofByte (Broker.decodeHeader bytes).type = some .subscribe ∧
      sub.topic ≠ [] then
    some (sub.topic, sub.group)
  else none

/-- A frame is not an ERROR_RESP. -/
def polite (bytes : Bytes) : Bool :=
  Broker.MessageType.ofByte (Broker.decodeHeader bytes).type ≠ some .errorResp

/-- A frame makes a subscription, and is not an ERROR_RESP. -/
def Makes (bytes : Bytes) (sub : Bytes × Bytes) : Prop :=
  polite bytes = true ∧ subscriptionOf bytes = some sub

/-- A frame makes no subscription, and is not an ERROR_RESP. -/
def Plain (bytes : Bytes) : Prop := polite bytes = true ∧ subscriptionOf bytes = none

/-- The broker's action when it takes a frame from a connection. -/
def frameAction (n : ℕ) (bytes : Bytes) : Broker.Action :=
  .frame n (Broker.decodeHeader bytes).type (Broker.decodeHeader bytes).msg_id
    (bytes.drop Broker.headerSize)

/-- The broker's action makes the subscription of the frame. -/
theorem subscriptions_frameAction (n : ℕ) (bytes : Bytes) :
    subscriptions n [frameAction n bytes] = (subscriptionOf bytes).toList := by
  simp only [subscriptions, frameAction, subscriptionOf, List.filterMap_cons, List.filterMap_nil,
    true_and]
  split_ifs <;> rfl

/-- It makes none on another connection. -/
theorem subscriptions_frameAction_of_ne {n k : ℕ} (h : n ≠ k) (bytes : Bytes) :
    subscriptions k [frameAction n bytes] = [] := by
  simp [subscriptions, frameAction, h]

variable {topic group : JsString} {bytes : Bytes}

/-- A frame of `encodeSubscribe` makes the subscription that it encodes. -/
theorem makes_of_encodeSubscribe (htopic : topic ≠ [])
    (h : Gateway.encodeSubscribe topic group 0 = some bytes) :
    Makes bytes (topic.toUtf8, group.toUtf8) := by
  obtain ⟨hfits, hgroup, rfl⟩ := encodeSubscribe_eq_some 0 h
  have hpayload : (subscribeFrame 0 topic.toUtf8 group.toUtf8).payload.length < 2 ^ 32 := by
    simp only [subscribeFrame, List.length_append, length_be]
    omega
  have hheader := brokerHeader_encode hpayload []
  rw [List.append_nil] at hheader
  have hdecode := decodeSubscribe_eq hfits hgroup 0
  have htype : Broker.MessageType.ofByte (subscribeFrame 0 topic.toUtf8 group.toUtf8).type =
      some .subscribe := rfl
  have hdrop : (subscribeFrame 0 topic.toUtf8 group.toUtf8).encode.drop Broker.headerSize =
      (subscribeFrame 0 topic.toUtf8 group.toUtf8).payload := drop_encode _
  constructor
  · simp only [polite, hheader, htype]
    decide
  · simp only [subscriptionOf, hheader, htype, hdrop, hdecode, true_and]
    rw [if_pos (JsString.toUtf8_ne_nil htopic)]

/-- A frame that starts with the header of another type makes none. -/
theorem plain_of_writeHeader {type : MsgType} {payloadLen : ℕ} {id : ℤ} {header : Bytes}
    (htype : Broker.MessageType.ofByte type.toByte ≠ some .subscribe)
    (hpolite : Broker.MessageType.ofByte type.toByte ≠ some .errorResp)
    (h : Gateway.writeHeader type payloadLen id = some header) (rest : Bytes) :
    Plain (header ++ rest) := by
  have hheader := type_of_writeHeader h rest
  constructor
  · simpa [polite, hheader] using hpolite
  · simp [subscriptionOf, hheader, htype]

/-- A PUBLISH frame makes none. -/
theorem plain_of_encodeDataFrame {body : Bytes} {id : ℤ}
    (h : Gateway.encodeDataFrame .publish topic body id = some bytes) : Plain bytes := by
  simp only [Gateway.encodeDataFrame, Option.bind_eq_bind, Option.pure_def,
    Option.bind_eq_some_iff] at h
  obtain ⟨header, hheader, len, -, heq⟩ := h
  obtain rfl := Option.some.inj heq
  rw [List.append_assoc, List.append_assoc]
  exact plain_of_writeHeader (by decide) (by decide) hheader _

/-- The frames without a payload make none. -/
theorem plain_of_header (type : MsgType) {id : ℤ}
    (htype : Broker.MessageType.ofByte type.toByte ≠ some .subscribe)
    (hpolite : Broker.MessageType.ofByte type.toByte ≠ some .errorResp)
    (h : Gateway.writeHeader type 0 id = some bytes) : Plain bytes := by
  have hplain := plain_of_writeHeader htype hpolite h []
  rwa [List.append_nil] at hplain

/-- The frames of the handler of `connect` make the topics' subscriptions, without groups. -/
theorem makes_of_mem_resubscribe {topics : List JsString} (htopics : ∀ p ∈ topics, p ≠ [])
    (h : bytes ∈ (WsServer.resubscribe topics).1) : ∃ p ∈ topics, Makes bytes (p.toUtf8, []) := by
  induction topics with
  | nil => cases h
  | cons p topics ih =>
    rw [WsServer.resubscribe, List.foldr_cons] at h
    cases hencode : Gateway.encodeSubscribe p [] 0 with
    | none =>
      rw [hencode] at h
      cases h
    | some frame =>
      rw [hencode] at h
      rcases List.mem_cons.mp h with rfl | h
      · have hmakes := makes_of_encodeSubscribe (htopics p List.mem_cons_self) hencode
        rw [JsString.toUtf8_nil] at hmakes
        exact ⟨p, List.mem_cons_self, hmakes⟩
      · obtain ⟨q, hq, hmakes⟩ := ih (fun q hq => htopics q (List.mem_cons_of_mem _ hq)) h
        exact ⟨q, List.mem_cons_of_mem _ hq, hmakes⟩

/-- They make those of all topics, unless one throws. -/
theorem exists_makes_of_resubscribe {topics : List JsString} (htopics : ∀ p ∈ topics, p ≠ [])
    (h : (WsServer.resubscribe topics).2 = false) {p : JsString} (hp : p ∈ topics) :
    ∃ b ∈ (WsServer.resubscribe topics).1, Makes b (p.toUtf8, []) := by
  induction topics with
  | nil => cases hp
  | cons q topics ih =>
    rw [WsServer.resubscribe, List.foldr_cons] at h ⊢
    cases hencode : Gateway.encodeSubscribe q [] 0 with
    | none =>
      rw [hencode] at h
      cases h
    | some frame =>
      rw [hencode] at h
      rcases List.mem_cons.mp hp with rfl | hp
      · have hmakes := makes_of_encodeSubscribe (htopics p List.mem_cons_self) hencode
        rw [JsString.toUtf8_nil] at hmakes
        exact ⟨frame, List.mem_cons_self, hmakes⟩
      · obtain ⟨b, hb, hmakes⟩ := ih (fun r hr => htopics r (List.mem_cons_of_mem _ hr)) h hp
        exact ⟨b, List.mem_cons_of_mem _ hb, hmakes⟩

/-- A client's message is forwarded in a frame without a subscription or in none, or it requests a
subscription and is forwarded in the frame that makes it, unless that throws. -/
theorem frames_handleMessage (s : State) (w : Ws) (m : ClientMessage) :
    s.requested w m = [] ∧ (∀ b ∈ (s.ws.handleMessage w m).frames, Plain b) ∨
      ∃ topic group, s.requested w m = [(w, topic, group)] ∧ topic ≠ [] ∧
        ((s.ws.handleMessage w m).frames = [] ∧ (s.ws.handleMessage w m).threw = true ∨
          ∃ b, (s.ws.handleMessage w m).frames = [b] ∧ Makes b (topic.toUtf8, group.toUtf8)) := by
  -- What the other kinds of messages are forwarded in makes no subscription.
  have hsend : ∀ (frame : Option Bytes) sends, (∀ b, frame = some b → Plain b) →
      ∀ b ∈ (s.ws.sendFrame frame sends).frames, Plain b := by
    intro frame sends hplain b hb
    cases frame with
    | none => cases hb
    | some bytes =>
      obtain rfl : b = bytes := by simpa [WsServer.sendFrame] using hb
      exact hplain b rfl
  cases m with
  | subscribe topic group =>
    by_cases htopic : topic = []
    · exact .inl ⟨by simp [State.requested, htopic], by simp [WsServer.handleMessage, htopic]⟩
    · cases hlookup : s.ws.clientTopics.lookup w with
      | none =>
        refine .inl ⟨by simp [State.requested, hlookup], ?_⟩
        simp [WsServer.handleMessage, htopic, WsServer.subscribe, hlookup]
      | some topics =>
        -- A tracked client with a topic: the one message that requests.
        refine .inr ⟨topic, group, by simp [State.requested, htopic, hlookup], htopic, ?_⟩
        simp only [WsServer.handleMessage, List.isEmpty_iff, htopic, if_false, WsServer.subscribe,
          hlookup]
        cases hencode : Gateway.encodeSubscribe topic group 0 with
        | none => exact .inl ⟨rfl, rfl⟩
        | some bytes => exact .inr ⟨bytes, rfl, makes_of_encodeSubscribe htopic hencode⟩
  | publish topic body =>
    refine .inl ⟨rfl, ?_⟩
    simp only [WsServer.handleMessage]
    split_ifs
    · intro b hb
      cases hb
    · exact hsend _ _ fun b hb => plain_of_encodeDataFrame hb
  | ack msgId =>
    refine .inl ⟨rfl, ?_⟩
    cases msgId with
    | none => simp [WsServer.handleMessage]
    | some id => exact hsend _ _ fun b hb => plain_of_header .ack (by decide) (by decide) hb
  | nack msgId =>
    refine .inl ⟨rfl, ?_⟩
    cases msgId with
    | none => simp [WsServer.handleMessage]
    | some id => exact hsend _ _ fun b hb => plain_of_header .nack (by decide) (by decide) hb
  | invalid | unknown | throws => exact .inl ⟨rfl, by simp [WsServer.handleMessage]⟩

/-! ## What has gone over a connection -/

variable {cfg : Config} {s t : State} {a : Action} {bas bas' : List Broker.Action}

namespace State

/-- The broker's action in a step of the system. -/
def brokerAction (s : State) : Action → Option Broker.Action
  | .broker b => some b
  | .dial sock => some (.accept sock)
  | .upstream n => (s.up n).head?.map (frameAction n)
  | _ => none

/-- The subscriptions that have gone over a connection, taken by the broker or under way. -/
def sent (s : State) (bas : List Broker.Action) (n : ℕ) : List (Bytes × Bytes) :=
  subscriptions n bas ++ (s.up n).filterMap subscriptionOf

end State

/-- What has gone over the gateway's connection. -/
structure Linked (bas : List Broker.Action) (s : State) (n : ℕ) : Prop where
  /-- Every subscription was requested, or its topic was, before the connection came up. -/
  asked : ∀ sub ∈ s.sent bas n, ∃ w p g, (w, p, g) ∈ s.requests ∧ sub.1 = p.toUtf8 ∧
    (sub.2 = g.toUtf8 ∨ sub.2 = [] ∧ (w, p, g) ∈ s.requests.take s.since)
  /-- What was requested since the connection came up has gone over it. -/
  recent : s.tcp.destroyed = false → ∀ w p g, (w, p, g) ∈ s.requests.drop s.since →
    (p.toUtf8, g.toUtf8) ∈ s.sent bas n
  /-- So have the topics that open clients had requested before. -/
  earlier : s.tcp.destroyed = false → ∀ w p g, (w, p, g) ∈ s.requests.take s.since →
    s.ws.isOpen w = true → (p.toUtf8, []) ∈ s.sent bas n

/-- What the gateway has told the broker, whose actions were `bas`. -/
structure Relayed (bas : List Broker.Action) (s : State) : Prop where
  /-- The broker's members come from those actions. -/
  attended : Broker.Attended bas s.broker
  /-- Every request has a topic. -/
  topics : ∀ w p g, (w, p, g) ∈ s.requests → p ≠ []
  /-- Only what was requested can have been requested before. -/
  since_le : s.since ≤ s.requests.length
  /-- What is under way goes to a connection that is there, and is no ERROR_RESP. -/
  up : ∀ n, ∀ b ∈ s.up n, n < s.broker.conns.length ∧ polite b = true
  /-- What waits is no ERROR_RESP, and makes a subscription only if it was requested. -/
  queue : ∀ b ∈ s.tcp.outQueue, polite b = true ∧ ∀ sub, subscriptionOf b = some sub →
    ∃ w p g, (w, p, g) ∈ s.requests ∧ sub = (p.toUtf8, g.toUtf8)
  /-- The gateway's connection is one of its own. -/
  own : ∀ n, s.link = some n → n ∈ s.own ∧ n < s.broker.conns.length
  /-- Nothing has gone over it before the gateway knows of it. -/
  unconnected : ∀ n, s.link = some n → s.tcp.connected = false → s.sent bas n = []
  /-- What has gone over it afterwards. -/
  linked : ∀ n, s.link = some n → s.tcp.connected = true → Linked bas s n

/-- Nothing has gone anywhere at first. -/
theorem relayed_start {file : Bytes} {order : List Broker.Message}
    (h : State.start cfg file order = some s) : Relayed [] s := by
  obtain ⟨broker, hbroker, rfl⟩ := Option.map_eq_some_iff.mp h
  refine ⟨Broker.attended_of_start hbroker, ?_, le_rfl, ?_, ?_, ?_, ?_, ?_⟩
  · intro w p g hmem
    cases hmem
  · intro n b hb
    cases hb
  · intro b hb
    cases hb
  all_goals
    intro n hn
    cases hn

/-- What an action of the broker leaves alone. -/
theorem brokerStep_eq {u : State} {b : Broker.Action} (h : u.brokerStep cfg b = some t) :
    ∃ broker down, u.broker.step cfg.broker b = some broker ∧ t = { u with broker, down } := by
  obtain ⟨broker, hstep, rfl⟩ := Option.map_eq_some_iff.mp h
  exact ⟨broker, _, hstep, rfl⟩

/-- An action of another client or of the broker's own threads. -/
theorem step_broker_eq {b : Broker.Action} (h : s.step cfg (.broker b) = some t) :
    (∃ broker down, s.broker.step cfg.broker b = some broker ∧ t = { s with broker, down }) ∧
      ∀ n type msg_id payload, b = .frame n type msg_id payload → n ∉ s.own := by
  simp only [State.step] at h
  split at h
  · rename_i k type msg_id payload
    split_ifs at h with hown
    refine ⟨brokerStep_eq h, fun n type' msg_id' payload' heq => ?_⟩
    cases heq
    exact hown
  · rename_i hframe
    exact ⟨brokerStep_eq h,
      fun n type msg_id payload heq => absurd heq (hframe n type msg_id payload)⟩

/-- The broker takes a frame of the gateway. -/
theorem step_upstream_eq {n : ℕ} (h : s.step cfg (.upstream n) = some t) :
    ∃ bytes rest broker down, s.up n = bytes :: rest ∧
      s.broker.step cfg.broker (frameAction n bytes) = some broker ∧
      t = { s with broker, down, up := Function.update s.up n rest } := by
  simp only [State.step] at h
  split at h
  · cases h
  · rename_i bytes rest hup
    obtain ⟨broker, down, hstep, rfl⟩ := brokerStep_eq h
    exact ⟨bytes, rest, broker, down, hup, hstep, rfl⟩

/-- The broker accepts a connection of the gateway. -/
theorem step_dial_eq {sock : Broker.ClientId} (h : s.step cfg (.dial sock) = some t) :
    s.tcp.connected = false ∧ ∃ broker, s.broker.step cfg.broker (.accept sock) = some broker ∧
      t = { s with
        broker, link := some s.broker.conns.length, own := s.own ++ [s.broker.conns.length],
        down := [] } := by
  simp only [State.step] at h
  split_ifs at h with hcond
  obtain ⟨broker, hstep, rfl⟩ := Option.map_eq_some_iff.mp h
  simp only [Bool.and_eq_true, Bool.not_eq_true'] at hcond
  exact ⟨hcond.1.2, broker, hstep, rfl⟩

/-- A client's message. -/
theorem step_wsMessage_eq {w : Ws} {m : ClientMessage} (h : s.step cfg (.wsMessage w m) = some t) :
    ∃ tcp up crashed, Sends s (s.ws.handleMessage w m).frames tcp up ∧ t = { s with
      ws := (s.ws.handleMessage w m).server, tcp, up, crashed
      link := if (s.ws.handleMessage w m).threw then none else s.link
      requests := s.requests ++ s.requested w m
      acks := s.acks ++ State.acknowledged m } := by
  simp only [State.step] at h
  split_ifs at h
  obtain rfl := Option.some.inj h
  obtain ⟨tcp, up, crashed, heq, hsends⟩ := State.turn_eq
    { s with requests := s.requests ++ s.requested w m, acks := s.acks ++ State.acknowledged m }
    (s.ws.handleMessage w m)
  exact ⟨tcp, up, crashed, hsends.congr rfl rfl rfl, heq⟩

/-- The handler of a frame. -/
theorem onFrame_eq (cfg : Config) (s : State) (f : Frame) (dispatch : ℕ) :
    ∃ ws handled accepted, s.onFrame cfg f dispatch = { s with ws, handled, accepted } := by
  unfold State.onFrame
  dsimp only
  by_cases htype : f.type = MsgType.eventData.toByte
  · rw [if_pos htype]
    exact ⟨_, _, _, rfl⟩
  · rw [if_neg htype]
    exact ⟨_, s.handled, s.accepted, rfl⟩

/-- A turn of the gateway leaves the broker alone, and makes no connection. -/
theorem step_gateway_eq (h : s.step cfg a = some t) (ha : s.brokerAction a = none) :
    t.broker = s.broker ∧ t.own = s.own ∧ ∀ n, t.link = some n → s.link = some n := by
  -- An exception ends the connection, and makes none.
  have hthrew : ∀ (threw : Bool) (n : ℕ), (if threw then none else s.link) = some n →
      s.link = some n := by
    intro threw n hn
    split_ifs at hn
    exact hn
  cases a with
  | broker b => cases ha
  | dial sock => cases ha
  | upstream n =>
    obtain ⟨bytes, rest, broker, down, hup, -⟩ := step_upstream_eq h
    simp [State.brokerAction, hup] at ha
  | connect =>
    obtain ⟨-, tcp, up, crashed, -, rfl⟩ := step_connect_eq h
    exact ⟨rfl, rfl, hthrew _⟩
  | wsMessage w m =>
    obtain ⟨tcp, up, crashed, -, rfl⟩ := step_wsMessage_eq h
    exact ⟨rfl, rfl, hthrew _⟩
  | handle =>
    simp only [State.step] at h
    split at h
    · cases h
    · rename_i f dispatch frames hframes
      obtain rfl := Option.some.inj h
      obtain ⟨ws, handled, accepted, heq⟩ := onFrame_eq cfg { s with frames } f dispatch
      rw [heq]
      exact ⟨rfl, rfl, fun n hn => hn⟩
  | heartbeat =>
    simp only [State.step] at h
    split_ifs at h
    obtain ⟨frame, -, rfl⟩ := Option.map_eq_some_iff.mp h
    obtain ⟨tcp, up, heq, -⟩ := s.send_eq frame
    rw [heq]
    exact ⟨rfl, rfl, fun n hn => hn⟩
  | close =>
    simp only [State.step] at h
    split_ifs at h
    obtain rfl := Option.some.inj h
    exact ⟨rfl, rfl, fun n hn => by cases hn⟩
  | data | wsConnect | wsClosing | wsClose | stats =>
    simp only [State.step] at h
    split_ifs at h
    obtain rfl := Option.some.inj h
    exact ⟨rfl, rfl, fun n hn => hn⟩

/-- The broker's part of a step. -/
theorem step_broker {b : Broker.Action} (h : s.step cfg a = some t)
    (hb : s.brokerAction a = some b) : s.broker.step cfg.broker b = some t.broker := by
  cases a with
  | broker b' =>
    obtain rfl := Option.some.inj hb
    obtain ⟨⟨broker, down, hstep, rfl⟩, -⟩ := step_broker_eq h
    exact hstep
  | dial sock =>
    obtain rfl := Option.some.inj hb
    obtain ⟨-, broker, hstep, rfl⟩ := step_dial_eq h
    exact hstep
  | upstream n =>
    obtain ⟨bytes, rest, broker, down, hup, hstep, rfl⟩ := step_upstream_eq h
    obtain rfl : frameAction n bytes = b := by simpa [State.brokerAction, hup] using hb
    exact hstep
  | _ => cases hb

/-- The broker's members stay attended. -/
theorem attended_of_step (hs : Broker.Attended bas s.broker) (h : s.step cfg a = some t) :
    Broker.Attended (bas ++ (s.brokerAction a).toList) t.broker ∧
      s.broker.conns.length ≤ t.broker.conns.length := by
  cases haction : s.brokerAction a with
  | none =>
    rw [(step_gateway_eq h haction).1]
    exact ⟨by simpa using hs, le_rfl⟩
  | some b =>
    have hstep := step_broker h haction
    exact ⟨hs.step hstep, (Broker.step_attends hstep).length_le⟩

/-- A step that requests nothing and sends nothing, after which the broker's actions are `bas'`. -/
structure Quiet (bas : List Broker.Action) (s : State) (bas' : List Broker.Action) (t : State) :
    Prop where
  /-- Nothing is requested. -/
  requests : t.requests = s.requests
  /-- No connection comes up. -/
  since : t.since = s.since
  /-- The same frames wait. -/
  queue : t.tcp.outQueue = s.tcp.outQueue
  /-- The gateway's process does not end. -/
  crashed : t.crashed = s.crashed
  /-- Nothing more is under way. -/
  up : ∀ n, ∀ b ∈ t.up n, b ∈ s.up n
  /-- The gateway's connections are its own. -/
  own : ∀ n ∈ s.own, n ∈ t.own
  /-- No connection is made, and the one that is there stays as it is, unless its socket is
  destroyed. -/
  link : ∀ n, t.link = some n → s.link = some n ∧ t.tcp.connected = s.tcp.connected ∧
    (t.tcp.destroyed = false → s.tcp.destroyed = false) ∧ t.sent bas' n = s.sent bas n

/-- A step that requests nothing and sends nothing keeps what was relayed. -/
theorem Relayed.quiet (hs : Relayed bas s) (hserved : Served cfg s)
    (hattended : Broker.Attended bas' t.broker)
    (hlength : s.broker.conns.length ≤ t.broker.conns.length)
    (hopen : ∀ w, w < s.ws.sockets.length → t.ws.isOpen w = true → s.ws.isOpen w = true)
    (h : Quiet bas s bas' t) : Relayed bas' t := by
  refine ⟨hattended, ?_, ?_, ?_, ?_, ?_, ?_, ?_⟩
  · rw [h.requests]
    exact hs.topics
  · rw [h.requests, h.since]
    exact hs.since_le
  · intro n b hb
    obtain ⟨hlt, hpolite⟩ := hs.up n b (h.up n b hb)
    exact ⟨hlt.trans_le hlength, hpolite⟩
  · rw [h.requests, h.queue]
    exact hs.queue
  · intro n hn
    obtain ⟨hmem, hlt⟩ := hs.own n (h.link n hn).1
    exact ⟨h.own n hmem, hlt.trans_le hlength⟩
  · intro n hn hconnected
    obtain ⟨hwas, hsame, -, hsent⟩ := h.link n hn
    rw [hsent]
    exact hs.unconnected n hwas (hsame ▸ hconnected)
  · intro n hn hconnected
    obtain ⟨hwas, hsame, hdestroyed, hsent⟩ := h.link n hn
    have hlinked := hs.linked n hwas (hsame ▸ hconnected)
    refine ⟨?_, ?_, ?_⟩ <;> rw [hsent, h.requests, h.since]
    · exact hlinked.asked
    · exact fun hd => hlinked.recent (hdestroyed hd)
    · intro hd w p g hmem hw
      -- A client that is open now was there before, and was open.
      have hknown := hserved.known w p g (List.mem_of_mem_take hmem)
      exact hlinked.earlier (hdestroyed hd) w p g hmem (hopen w hknown hw)

/-- The actions in which the gateway may send something, or gets a connection. -/
def Action.quiet : Action → Bool
  | .dial _ | .connect | .wsMessage .. | .heartbeat => false
  | _ => true

/-- In all others nothing is requested and nothing sent. -/
theorem quiet_of_step (hs : Relayed bas s) (hquiet : a.quiet = true) (h : s.step cfg a = some t) :
    Quiet bas s (bas ++ (s.brokerAction a).toList) t := by
  -- A step that leaves the connection and the requests alone.
  have hlocal : t.requests = s.requests → t.since = s.since → t.tcp = s.tcp →
      t.crashed = s.crashed → t.up = s.up → t.own = s.own → t.link = s.link →
      s.brokerAction a = none → Quiet bas s (bas ++ (s.brokerAction a).toList) t := by
    intro hrequests hsince htcp hcrashed hup hown hlink hnone
    refine ⟨hrequests, hsince, by rw [htcp], hcrashed, fun n b hb => hup ▸ hb,
      fun n hn => hown ▸ hn, fun n hn => ⟨hlink ▸ hn, by rw [htcp], fun h => htcp ▸ h, ?_⟩⟩
    simp [State.sent, hup, hnone]
  cases a with
  | dial | connect | wsMessage | heartbeat => cases hquiet
  | broker b =>
    obtain ⟨⟨broker, down, hstep, rfl⟩, hother⟩ := step_broker_eq h
    refine ⟨rfl, rfl, rfl, rfl, fun n b hb => hb, fun n hn => hn, fun n hn => ⟨hn, rfl, id, ?_⟩⟩
    have hnone : subscriptions n [b] = [] := by
      refine List.eq_nil_iff_forall_not_mem.mpr fun sub hsub => ?_
      obtain ⟨type, msg_id, payload, heq, -⟩ := Broker.mem_subscriptions_singleton.mp hsub
      exact hother n type msg_id payload heq (hs.own n hn).1
    simp [State.sent, State.brokerAction, Broker.subscriptions_append, hnone]
  | upstream k =>
    obtain ⟨bytes, rest, broker, down, hup, hstep, rfl⟩ := step_upstream_eq h
    refine ⟨rfl, rfl, rfl, rfl, fun n b hb => ?_, fun n hn => hn, fun n hn => ⟨hn, rfl, id, ?_⟩⟩
    · by_cases hnk : n = k
      · subst hnk
        have hb : b ∈ rest := by simpa using hb
        rw [hup]
        exact List.mem_cons_of_mem _ hb
      · simpa [hnk] using hb
    · -- what the broker takes was under way
      rw [State.sent, State.sent, State.brokerAction, hup, List.head?_cons, Option.map_some,
        Option.toList_some, Broker.subscriptions_append]
      dsimp only
      by_cases hnk : n = k
      · subst hnk
        rw [subscriptions_frameAction, hup, Function.update_self, List.filterMap_cons,
          List.append_assoc]
        cases subscriptionOf bytes <;> rfl
      · rw [subscriptions_frameAction_of_ne (Ne.symm hnk), Function.update_of_ne hnk,
          List.append_nil]
  | data k =>
    simp only [State.step] at h
    split_ifs at h
    obtain rfl := Option.some.inj h
    have hdata : ∀ bytes, (s.tcp.data bytes).1.outQueue = s.tcp.outQueue ∧
        (s.tcp.data bytes).1.connected = s.tcp.connected ∧
        ((s.tcp.data bytes).1.destroyed = false → s.tcp.destroyed = false) := by
      intro bytes
      simp only [TcpView.data]
      split_ifs
      · exact ⟨rfl, rfl, fun h => by cases h⟩
      · exact ⟨rfl, rfl, id⟩
    refine ⟨rfl, rfl, (hdata _).1, rfl, fun n b hb => hb, fun n hn => hn,
      fun n hn => ⟨hn, (hdata _).2.1, (hdata _).2.2, ?_⟩⟩
    simp [State.sent, State.brokerAction]
  | close =>
    simp only [State.step] at h
    split_ifs at h
    obtain rfl := Option.some.inj h
    exact ⟨rfl, rfl, rfl, rfl, fun n b hb => hb, fun n hn => hn, fun n hn => by cases hn⟩
  | handle =>
    simp only [State.step] at h
    split at h
    · cases h
    · rename_i f dispatch frames hframes
      obtain rfl := Option.some.inj h
      obtain ⟨ws, handled, accepted, heq⟩ := onFrame_eq cfg { s with frames } f dispatch
      rw [heq] at hlocal ⊢
      exact hlocal rfl rfl rfl rfl rfl rfl rfl rfl
  | wsConnect | wsClosing | wsClose | stats =>
    simp only [State.step] at h
    split_ifs at h
    obtain rfl := Option.some.inj h
    exact hlocal rfl rfl rfl rfl rfl rfl rfl rfl

/-- A handler that requests some subscriptions, and sends the frames that make them. -/
theorem Relayed.sends (hs : Relayed bas s) (hserved : Served cfg s) {frames : List Bytes}
    {tcp : TcpView} {up : ℕ → List Bytes} (hsends : Sends s frames tcp up) {ws : WsServer}
    {rs : List (Ws × JsString × JsString)} {crashed : Bool} {link : Option ℕ} {acks : List ℤ}
    (htopics : ∀ w p g, (w, p, g) ∈ rs → p ≠ [])
    (hframes : ∀ b ∈ frames, polite b = true ∧ ∀ sub, subscriptionOf b = some sub →
      ∃ w p g, (w, p, g) ∈ rs ∧ sub = (p.toUtf8, g.toUtf8))
    (hopen : ∀ w, w < s.ws.sockets.length → ws.isOpen w = true → s.ws.isOpen w = true)
    (hlink : link = none ∨ link = s.link ∧ ∀ w p g, (w, p, g) ∈ rs →
      (p.toUtf8, g.toUtf8) ∈ frames.filterMap subscriptionOf) :
    Relayed bas { s with ws, tcp, up, crashed, link, requests := s.requests ++ rs, acks } := by
  have hlinked : ∀ {n : ℕ}, link = some n → s.link = some n ∧ ∀ w p g, (w, p, g) ∈ rs →
      (p.toUtf8, g.toUtf8) ∈ frames.filterMap subscriptionOf := by
    intro n hn
    rcases hlink with rfl | ⟨rfl, hmade⟩
    · cases hn
    · exact ⟨hn, hmade⟩
  refine ⟨hs.attended, ?_, ?_, ?_, ?_, ?_, ?_, ?_⟩
  · intro w p g hmem
    rcases List.mem_append.mp hmem with hmem | hmem
    · exact hs.topics w p g hmem
    · exact htopics w p g hmem
  · exact hs.since_le.trans (by simp)
  · intro n b hb
    rcases hsends.travels n b hb with hb | ⟨hb, hn⟩
    · exact hs.up n b hb
    · exact ⟨(hs.own n hn).2, (hframes b hb).1⟩
  · intro b hb
    rcases hsends.queued b hb with hb | hb
    · obtain ⟨hpolite, hsub⟩ := hs.queue b hb
      refine ⟨hpolite, fun sub h => ?_⟩
      obtain ⟨w, p, g, hmem, rfl⟩ := hsub sub h
      exact ⟨w, p, g, List.mem_append_left _ hmem, rfl⟩
    · obtain ⟨hpolite, hsub⟩ := hframes b hb
      refine ⟨hpolite, fun sub h => ?_⟩
      obtain ⟨w, p, g, hmem, rfl⟩ := hsub sub h
      exact ⟨w, p, g, List.mem_append_right _ hmem, rfl⟩
  · exact fun n hn => hs.own n (hlinked hn).1
  · intro n hn hconnected
    have hno : s.tcp.connected = false := hsends.connected.symm.trans hconnected
    have hwas := hs.unconnected n (hlinked hn).1 hno
    rw [State.sent] at hwas ⊢
    dsimp only
    rw [hsends.unsent (.inl hno), hwas]
  · intro n hn hconnected
    obtain ⟨hwas, hmade⟩ := hlinked hn
    have hyes : s.tcp.connected = true := hsends.connected.symm.trans hconnected
    have hold := hs.linked n hwas hyes
    have htake : (s.requests ++ rs).take s.since = s.requests.take s.since :=
      List.take_append_of_le_length hs.since_le
    have hdrop : (s.requests ++ rs).drop s.since = s.requests.drop s.since ++ rs :=
      List.drop_append_of_le_length hs.since_le
    cases hdestroyed : s.tcp.destroyed with
    | true =>
      -- The socket is gone, and nothing is written to it.
      have hgone : tcp.destroyed = true := hsends.destroyed.trans hdestroyed
      refine ⟨fun sub hsub => ?_, fun h => ?_, fun h => ?_⟩
      · rw [State.sent, hsends.unsent (.inr hdestroyed)] at hsub
        obtain ⟨w, p, g, hmem, htopic, hgroup⟩ := hold.asked sub hsub
        refine ⟨w, p, g, List.mem_append_left _ hmem, htopic, ?_⟩
        dsimp only
        rwa [htake]
      · rw [hgone] at h
        cases h
      · rw [hgone] at h
        cases h
    | false =>
      have hsent : ∀ sub, sub ∈ subscriptions n bas ++ (up n).filterMap subscriptionOf ↔
          sub ∈ s.sent bas n ∨ sub ∈ frames.filterMap subscriptionOf := by
        intro sub
        rw [hsends.written n hwas hyes hdestroyed, List.filterMap_append, ← List.append_assoc,
          List.mem_append]
        rfl
      refine ⟨fun sub hsub => ?_, fun _ w p g hmem => ?_, fun _ w p g hmem hw => ?_⟩
      · dsimp only
        rw [htake]
        rcases (hsent sub).mp hsub with hsub | hsub
        · obtain ⟨w, p, g, hmem, h⟩ := hold.asked sub hsub
          exact ⟨w, p, g, List.mem_append_left _ hmem, h⟩
        · obtain ⟨b, hb, hmakes⟩ := List.mem_filterMap.mp hsub
          obtain ⟨w, p, g, hmem, rfl⟩ := (hframes b hb).2 sub hmakes
          exact ⟨w, p, g, List.mem_append_right _ hmem, rfl, .inl rfl⟩
      · dsimp only at hmem
        rw [hdrop] at hmem
        refine (hsent _).mpr ?_
        rcases List.mem_append.mp hmem with hmem | hmem
        · exact .inl (hold.recent hdestroyed w p g hmem)
        · exact .inr (hmade w p g hmem)
      · dsimp only at hmem
        rw [htake] at hmem
        have hknown := hserved.known w p g (List.mem_of_mem_take hmem)
        exact (hsent _).mpr (.inl (hold.earlier hdestroyed w p g hmem (hopen w hknown hw)))

/-- What has gone over a connection when it has come up: the frames of the handler of `connect`, and
those that waited. -/
theorem sent_of_connect (hs : Relayed bas s) (h : s.step cfg .connect = some t) {n : ℕ}
    (hn : t.link = some n) :
    s.ws.onConnect.threw = false ∧ s.link = some n ∧
      ∀ sub, sub ∈ t.sent bas n ↔
        ∃ b ∈ s.ws.onConnect.frames ++ s.tcp.outQueue, subscriptionOf b = some sub := by
  obtain ⟨⟨-, -, hunconnected⟩, tcp, up, crashed, hsends, rfl⟩ := step_connect_eq h
  dsimp only at hn
  split_ifs at hn with hthrew
  refine ⟨Bool.eq_false_iff.mpr hthrew, hn, fun sub => ?_⟩
  have hnil := hs.unconnected n hn hunconnected
  have hup : up n = s.up n ++ (s.ws.onConnect.frames ++ s.tcp.outQueue) := by
    have hwritten := hsends.written n hn rfl rfl
    dsimp only at hwritten
    rwa [if_neg hthrew] at hwritten
  rw [State.sent] at hnil ⊢
  dsimp only
  rw [hup, List.filterMap_append, ← List.append_assoc, hnil, List.nil_append, List.mem_filterMap]

/-- The gateway learns that it is connected: it subscribes to all topics that its clients have, and
sends what has waited. -/
theorem Relayed.connect (hs : Relayed bas s) (hserved : Served cfg s)
    (h : s.step cfg .connect = some t) : Relayed bas t := by
  have hnew := fun n => sent_of_connect (n := n) hs h
  obtain ⟨⟨-, -, hunconnected⟩, tcp, up, crashed, hsends, rfl⟩ := step_connect_eq h
  have hkeys : ∀ p ∈ s.ws.topicClients.keys, ∃ w g, (w, p, g) ∈ s.requests := by
    intro p hp
    obtain ⟨clients, hclients⟩ := Option.isSome_iff_exists.mp (AList.lookup_isSome.mpr hp)
    exact hserved.listed p clients hclients
  have htopics : ∀ p ∈ s.ws.topicClients.keys, p ≠ [] := by
    intro p hp
    obtain ⟨w, g, hmem⟩ := hkeys p hp
    exact hs.topics w p g hmem
  -- What the frames make.
  have hframes : ∀ b ∈ s.ws.onConnect.frames ++
      (if s.ws.onConnect.threw then [] else s.tcp.onConnect.2), polite b = true ∧
        ∀ sub, subscriptionOf b = some sub → ∃ w p g, (w, p, g) ∈ s.requests ∧ sub.1 = p.toUtf8 ∧
          (sub.2 = g.toUtf8 ∨ sub.2 = []) := by
    intro b hb
    rcases List.mem_append.mp hb with hb | hb
    · obtain ⟨p, hp, hpolite, hsub⟩ := makes_of_mem_resubscribe htopics hb
      refine ⟨hpolite, fun sub h => ?_⟩
      obtain rfl := Option.some.inj (hsub.symm.trans h)
      obtain ⟨w, g, hmem⟩ := hkeys p hp
      exact ⟨w, p, g, hmem, rfl, .inr rfl⟩
    · have hb : b ∈ s.tcp.outQueue := by
        split_ifs at hb
        · cases hb
        · exact hb
      obtain ⟨hpolite, hsub⟩ := hs.queue b hb
      refine ⟨hpolite, fun sub h => ?_⟩
      obtain ⟨w, p, g, hmem, rfl⟩ := hsub sub h
      exact ⟨w, p, g, hmem, rfl, .inl rfl⟩
  refine ⟨hs.attended, hs.topics, le_rfl, ?_, ?_, ?_, ?_, ?_⟩
  · intro n b hb
    rcases hsends.travels n b hb with hb | ⟨hb, hn⟩
    · exact hs.up n b hb
    · exact ⟨(hs.own n hn).2, (hframes b hb).1⟩
  · intro b hb
    have hempty : tcp.outQueue = [] := hsends.direct rfl
    rw [hempty] at hb
    cases hb
  · exact fun n hn => hs.own n (hnew n hn).2.1
  · intro n hn hconnected
    have hyes : tcp.connected = true := hsends.connected
    rw [hyes] at hconnected
    cases hconnected
  · intro n hn hconnected
    obtain ⟨hthrew, -, hnew⟩ := hnew n hn
    refine ⟨fun sub hsub => ?_, fun _ w p g hmem => ?_, fun _ w p g hmem hw => ?_⟩
    · obtain ⟨b, hb, hmakes⟩ := (hnew sub).mp hsub
      have hb : b ∈ s.ws.onConnect.frames ++
          if s.ws.onConnect.threw then [] else s.tcp.onConnect.2 := by
        rwa [hthrew, if_neg Bool.false_ne_true]
      obtain ⟨w, p, g, hmem, htopic, hgroup⟩ := (hframes b hb).2 sub hmakes
      refine ⟨w, p, g, hmem, htopic, hgroup.imp_right fun h => ⟨h, ?_⟩⟩
      dsimp only
      rwa [List.take_length]
    · dsimp only at hmem
      rw [List.drop_length] at hmem
      cases hmem
    · have hhas := hserved.tracked w p g (List.mem_of_mem_take hmem) hw
      obtain ⟨clients, hlookup, -⟩ := (hserved.indexed.inverse w p).mp hhas
      have hkey : p ∈ s.ws.topicClients.keys :=
        AList.lookup_isSome.mp (Option.isSome_iff_exists.mpr ⟨clients, hlookup⟩)
      obtain ⟨b, hb, -, hmakes⟩ := exists_makes_of_resubscribe htopics hthrew hkey
      exact (hnew _).mpr ⟨b, List.mem_append_left _ hb, hmakes⟩

/-- The broker accepts a connection of the gateway, over which nothing has gone yet. -/
theorem Relayed.dial (hs : Relayed bas s) {sock : Broker.ClientId}
    (h : s.step cfg (.dial sock) = some t) : Relayed (bas ++ [.accept sock]) t := by
  obtain ⟨hunconnected, broker, hstep, rfl⟩ := step_dial_eq h
  have hlength : s.broker.conns.length < broker.conns.length := by
    simp only [Broker.State.step] at hstep
    split_ifs at hstep
    rw [← Option.some.inj hstep]
    simp
  refine ⟨hs.attended.step hstep, hs.topics, hs.since_le, ?_, hs.queue, ?_, ?_, ?_⟩
  · intro n b hb
    obtain ⟨hlt, hpolite⟩ := hs.up n b hb
    exact ⟨hlt.trans hlength, hpolite⟩
  · rintro n hn
    obtain rfl := Option.some.inj hn
    exact ⟨List.mem_append_right _ (List.mem_singleton_self _), hlength⟩
  · rintro n hn -
    obtain rfl := Option.some.inj hn
    -- Nothing travels, and nothing was subscribed, over a connection that is new.
    have hup : s.up s.broker.conns.length = [] := by
      by_contra hne
      obtain ⟨b, hb⟩ := List.exists_mem_of_ne_nil _ hne
      exact absurd (hs.up _ b hb).1 (lt_irrefl _)
    have hsubs : subscriptions s.broker.conns.length bas = [] := by
      by_contra hne
      exact absurd (hs.attended.known _ hne) (lt_irrefl _)
    have haccept : subscriptions s.broker.conns.length [.accept sock] = [] := rfl
    simp [State.sent, Broker.subscriptions_append, hup, hsubs, haccept]
  · intro n hn hconnected
    rw [hunconnected] at hconnected
    cases hconnected

/-- Every step keeps what was relayed, with the broker's action added. -/
theorem Relayed.step (hs : Relayed bas s) (hserved : Served cfg s)
    (h : s.step cfg a = some t) : Relayed (bas ++ (s.brokerAction a).toList) t := by
  obtain ⟨hattended, hlength⟩ := attended_of_step hs.attended h
  have hopen : ∀ w, w < s.ws.sockets.length → t.ws.isOpen w = true → s.ws.isOpen w = true :=
    fun w hw => (step_serves h).isOpen hw
  cases a with
  | dial sock => exact hs.dial h
  | connect =>
    simp only [State.brokerAction, Option.toList_none, List.append_nil]
    exact hs.connect hserved h
  | wsMessage w m =>
    obtain ⟨tcp, up, crashed, hsends, rfl⟩ := step_wsMessage_eq h
    simp only [State.brokerAction, Option.toList_none, List.append_nil]
    rcases frames_handleMessage s w m with ⟨hnone, hplain⟩ | ⟨topic, group, hone, htopic, hframes⟩
    · refine hs.sends hserved hsends ?_ ?_ hopen ?_
      · rw [hnone]
        intro w p g hmem
        cases hmem
      · intro b hb
        refine ⟨(hplain b hb).1, fun sub hsub => ?_⟩
        rw [(hplain b hb).2] at hsub
        cases hsub
      · rw [hnone]
        split_ifs
        · exact .inl rfl
        · exact .inr ⟨rfl, fun w p g hmem => by cases hmem⟩
    · refine hs.sends hserved hsends ?_ ?_ hopen ?_
      · intro w p g hmem
        obtain ⟨rfl, rfl, rfl⟩ : w = _ ∧ p = topic ∧ g = group := by simpa [hone] using hmem
        exact htopic
      · intro b hb
        rcases hframes with ⟨hempty, -⟩ | ⟨b', hb', hmakes⟩
        · rw [hempty] at hb
          cases hb
        · obtain rfl : b = b' := by simpa [hb'] using hb
          refine ⟨hmakes.1, fun sub hsub => ⟨w, topic, group, by simp [hone], ?_⟩⟩
          exact Option.some.inj (hsub.symm.trans hmakes.2)
      · rcases hframes with ⟨-, hthrew⟩ | ⟨b', hb', hmakes⟩
        · exact .inl (by simp [hthrew])
        · split_ifs
          · exact .inl rfl
          · refine .inr ⟨rfl, fun w' p g hmem => ?_⟩
            obtain ⟨rfl, rfl, rfl⟩ : w' = w ∧ p = topic ∧ g = group := by simpa [hone] using hmem
            simp [hb', hmakes.2]
  | heartbeat =>
    simp only [State.step] at h
    split_ifs at h
    obtain ⟨frame, hframe, rfl⟩ := Option.map_eq_some_iff.mp h
    obtain ⟨tcp, up, heq, hsends⟩ := s.send_eq frame
    have hplain := plain_of_header .heartbeat (by decide) (by decide) hframe
    have ht : Relayed bas { s with tcp, up, requests := s.requests ++ [] } := by
      refine hs.sends hserved hsends (fun w p g hmem => by cases hmem) (fun b hb => ?_)
        (fun w _ hw => hw) (.inr ⟨rfl, fun w p g hmem => by cases hmem⟩)
      obtain rfl := List.mem_singleton.mp hb
      refine ⟨hplain.1, fun sub hsub => ?_⟩
      rw [hplain.2] at hsub
      cases hsub
    rw [heq]
    simpa [State.brokerAction] using ht
  | broker | upstream | data | close | handle | wsConnect | wsClosing | wsClose | stats =>
    exact hs.quiet hserved hattended hlength hopen (quiet_of_step hs rfl h)

end EventQueue.Bridge
