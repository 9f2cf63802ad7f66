import EventQueue.Bridge.System
import EventQueue.Lib.Transition

/-!
# What the gateway keeps of its clients

The part of the system that the WebSocket clients see: their sockets, the two maps, the ring, and
the histories. `Serves` lists what a step of the system can do to it, and `Served` is what every run
keeps of it: the two maps are inverse to each other, the clients in them are those that have
requested something and are not closed, and the ring is the window of the last identifiers accepted.
-/

namespace EventQueue.Bridge

open Gateway (Frame MsgType Turn TcpView Ws WsServer ClientMessage)
open Transition (Run)

variable {cfg : Config} {s t : State} {a : Action}

/-! ## What sending does -/

/-- What sending frames does to the connection, and to what is under way. -/
structure Sends (s : State) (frames : List Bytes) (tcp : TcpView) (up : ℕ → List Bytes) : Prop where
  /-- The connection is there or not, as before. -/
  connected : tcp.connected = s.tcp.connected
  /-- So is its socket. -/
  destroyed : tcp.destroyed = s.tcp.destroyed
  /-- What waits was waiting or is one of the frames. -/
  queued : ∀ b ∈ tcp.outQueue, b ∈ s.tcp.outQueue ∨ b ∈ frames
  /-- All of them wait while there is none, unless the queue has become full. -/
  waits : s.tcp.connected = false → tcp.outQueue.length < Gateway.OUT_QUEUE_MAX →
    tcp.outQueue = s.tcp.outQueue ++ frames
  /-- Nothing has to wait while there is a connection. -/
  direct : s.tcp.connected = true → tcp.outQueue = s.tcp.outQueue
  /-- What is under way was under way, or is one of the frames. -/
  travels : ∀ n, ∀ b ∈ up n, b ∈ s.up n ∨ b ∈ frames ∧ s.link = some n
  /-- The frames go to the socket, if it is there. -/
  written : ∀ n, s.link = some n → s.tcp.connected = true → s.tcp.destroyed = false →
    up n = s.up n ++ frames
  /-- Otherwise nothing does. -/
  unsent : s.tcp.connected = false ∨ s.tcp.destroyed = true → up = s.up

/-- Only the connection and what is under way matter to it. -/
theorem Sends.congr {frames : List Bytes} {tcp : TcpView} {up : ℕ → List Bytes}
    (h : Sends s frames tcp up) (htcp : t.tcp = s.tcp) (hup : t.up = s.up)
    (hlink : t.link = s.link) :
    Sends t frames tcp up := by
  obtain ⟨hconnected, hdestroyed, hqueued, hwaits, hdirect, htravels, hwritten, hunsent⟩ := h
  rw [← htcp] at hconnected hdestroyed hqueued hwaits hdirect hwritten hunsent
  rw [← hup] at htravels hwritten hunsent
  rw [← hlink] at htravels hwritten
  exact ⟨hconnected, hdestroyed, hqueued, hwaits, hdirect, htravels, hwritten, hunsent⟩

namespace State

/-- `tcp.send`. -/
theorem send_eq (s : State) (frame : Bytes) :
    ∃ tcp up, s.send frame = { s with tcp, up } ∧ Sends s [frame] tcp up := by
  cases hconnected : s.tcp.connected with
  | false =>
    -- The frame is queued, or dropped when the queue is full.
    obtain ⟨outQueue, hsend, hqueue, hwaits⟩ : ∃ outQueue,
        s.tcp.send frame = ({ s.tcp with outQueue }, none) ∧
          (∀ b ∈ outQueue, b ∈ s.tcp.outQueue ∨ b ∈ [frame]) ∧
          (outQueue.length < Gateway.OUT_QUEUE_MAX → outQueue = s.tcp.outQueue ++ [frame]) := by
      by_cases hroom : s.tcp.outQueue.length < Gateway.OUT_QUEUE_MAX
      · exact ⟨_, by simp [TcpView.send, hconnected, hroom], fun b hb => List.mem_append.mp hb,
          fun _ => rfl⟩
      · refine ⟨s.tcp.outQueue, ?_, fun b hb => .inl hb, fun h => absurd h hroom⟩
        rw [TcpView.send, if_neg (by simp [hconnected]), if_neg hroom]
    refine ⟨{ s.tcp with outQueue }, s.up, by simp [send, hsend], ?_⟩
    exact ⟨rfl, rfl, hqueue, fun _ => hwaits, by simp [hconnected], fun n b hb => .inl hb,
      by simp [hconnected], fun _ => rfl⟩
  | true =>
    have hsend : s.tcp.send frame = (s.tcp, some frame) := by simp [TcpView.send, hconnected]
    cases hlink : s.link with
    | none =>
      refine ⟨s.tcp, s.up, by simp [send, hsend, hlink], ?_⟩
      exact ⟨rfl, rfl, fun b hb => .inl hb, by simp [hconnected], fun _ => rfl,
        fun n b hb => .inl hb, by simp [hlink], fun _ => rfl⟩
    | some n =>
      cases hdestroyed : s.tcp.destroyed with
      | true =>
        refine ⟨s.tcp, s.up, by simp [send, hsend, hlink, hdestroyed], ?_⟩
        exact ⟨rfl, rfl, fun b hb => .inl hb, by simp [hconnected], fun _ => rfl,
          fun n b hb => .inl hb, by simp [hdestroyed], fun _ => rfl⟩
      | false =>
        refine ⟨s.tcp, Function.update s.up n (s.up n ++ [frame]),
          by simp [send, hsend, hlink, hdestroyed], ?_⟩
        refine ⟨rfl, rfl, fun b hb => .inl hb, by simp [hconnected], fun _ => rfl,
          fun k b hb => ?_, fun k hk _ _ => ?_, by simp [hconnected, hdestroyed]⟩
        · by_cases hkn : k = n
          · subst hkn
            simpa [hlink] using hb
          · exact .inl (by simpa [hkn] using hb)
        · obtain rfl := Option.some.inj (hlink.symm.trans hk)
          simp

/-- Several calls. -/
theorem foldl_send_eq (frames : List Bytes) (s : State) :
    ∃ tcp up, frames.foldl send s = { s with tcp, up } ∧ Sends s frames tcp up := by
  induction frames generalizing s with
  | nil =>
    refine ⟨s.tcp, s.up, rfl, rfl, rfl, fun b hb => .inl hb, ?_, fun _ => rfl,
      fun n b hb => .inl hb, ?_, fun _ => rfl⟩
    all_goals simp
  | cons frame frames ih =>
    -- The first call, and then the others from where it leaves off.
    obtain ⟨tcp, up, heq, hone⟩ := s.send_eq frame
    obtain ⟨tcp', up', heq', hrest⟩ := ih (s.send frame)
    rw [heq] at hrest
    refine ⟨tcp', up', by rw [List.foldl_cons, heq', heq], ?_⟩
    refine ⟨hrest.connected.trans hone.connected, hrest.destroyed.trans hone.destroyed, ?_, ?_, ?_,
      ?_, ?_, ?_⟩
    · intro b hb
      rcases hrest.queued b hb with hb | hb
      · simpa using (hone.queued b hb).imp_right fun hb => .inl (List.mem_singleton.mp hb)
      · exact .inr (List.mem_cons_of_mem _ hb)
    · intro hconnected hroom
      have hqueue := hrest.waits (hone.connected.trans hconnected) hroom
      have hroom' : tcp.outQueue.length < Gateway.OUT_QUEUE_MAX :=
        lt_of_le_of_lt (by simp [hqueue]) hroom
      rw [hqueue, hone.waits hconnected hroom', List.append_assoc, List.singleton_append]
    · intro hconnected
      exact (hrest.direct (hone.connected.trans hconnected)).trans (hone.direct hconnected)
    · intro n b hb
      rcases hrest.travels n b hb with hb | ⟨hb, hlink⟩
      · exact (hone.travels n b hb).imp_right fun hb =>
          ⟨List.mem_cons.mpr (.inl (List.mem_singleton.mp hb.1)), hb.2⟩
      · exact .inr ⟨List.mem_cons_of_mem _ hb, hlink⟩
    · intro n hlink hconnected hdestroyed
      have hup := hrest.written n hlink (hone.connected.trans hconnected)
        (hone.destroyed.trans hdestroyed)
      dsimp only at hup
      rw [hup, hone.written n hlink hconnected hdestroyed, List.append_assoc, List.singleton_append]
    · intro hno
      have hup := hrest.unsent (by simpa [hone.connected, hone.destroyed] using hno)
      exact hup.trans (hone.unsent hno)

/-- A handler changes the server, the connection, and what is under way only. An exception ends the
connection. -/
theorem turn_eq (s : State) (t : Turn) : ∃ tcp up crashed,
    s.turn t = { s with
      ws := t.server, tcp, up, crashed, link := if t.threw then none else s.link } ∧
    Sends s t.frames tcp up := by
  obtain ⟨tcp, up, heq, hsends⟩ := foldl_send_eq t.frames { s with ws := t.server }
  unfold turn
  rw [heq]
  dsimp only
  split_ifs
  · exact ⟨tcp, up, _, rfl, hsends.congr rfl rfl rfl⟩
  · exact ⟨tcp, up, _, rfl, hsends.congr rfl rfl rfl⟩

end State

/-- What a step does to the part that the clients see. -/
inductive Serves (cfg : Config) (s : State) (a : Action) (t : State) : Prop
  /-- Nothing. -/
  | nothing (ha : a ≠ .handle) (hws : t.ws = s.ws) (hrequests : t.requests = s.requests)
      (haccepted : t.accepted = s.accepted) (hhandled : t.handled = s.handled)
  /-- A client connects. -/
  | connected (ha : a = .wsConnect) (hws : t.ws = s.ws.connection)
      (hrequests : t.requests = s.requests) (haccepted : t.accepted = s.accepted)
      (hhandled : t.handled = s.handled)
  /-- A client subscribes. -/
  | subscribed (w : Ws) (topic group : JsString) (topics : OrderedSet JsString)
      (ha : a = .wsMessage w (.subscribe topic group)) (htopic : topic ≠ [])
      (hlookup : s.ws.clientTopics.lookup w = some topics) (hws : t.ws = s.ws.track w topic topics)
      (hrequests : t.requests = s.requests ++ [(w, topic, group)])
      (haccepted : t.accepted = s.accepted) (hhandled : t.handled = s.handled)
  /-- A client's socket starts to close. -/
  | closing (w : Ws) (ha : a = .wsClosing w) (hws : t.ws = s.ws.closing w)
      (hrequests : t.requests = s.requests) (haccepted : t.accepted = s.accepted)
      (hhandled : t.handled = s.handled)
  /-- A client's socket is closed. -/
  | closed (w : Ws) (ha : a = .wsClose w) (hws : t.ws = s.ws.close w)
      (hrequests : t.requests = s.requests) (haccepted : t.accepted = s.accepted)
      (hhandled : t.handled = s.handled)
  /-- An event is handled. -/
  | event (f : Frame) (dispatch : ℕ) (frames : List (Frame × ℕ)) (ha : a = .handle)
      (hframes : s.frames = (f, dispatch) :: frames) (htype : f.type = MsgType.eventData.toByte)
      (hws : t.ws =
        (s.ws.dispatchEvent cfg.ringSize (Gateway.decodeEventPayload f.payload).1 f.msgId
        (Gateway.decodeEventPayload f.payload).2).1)
      (hrequests : t.requests = s.requests)
      (haccepted : t.accepted =
        if s.ws.suppresses (Gateway.decodeEventPayload f.payload).1 f.msgId ||
          WsServer.exempt (Gateway.decodeEventPayload f.payload).1 then s.accepted
        else s.accepted ++ [f.msgId])
      (hhandled : t.handled = s.handled ++ [s.record f dispatch
        ((s.ws.dispatchEvent cfg.ringSize (Gateway.decodeEventPayload f.payload).1 f.msgId
          (Gateway.decodeEventPayload f.payload).2).2.map Prod.fst)])
  /-- A frame without an event is handled. -/
  | other (ha : a = .handle) (f : Frame) (dispatch : ℕ) (frames : List (Frame × ℕ))
      (hframes : s.frames = (f, dispatch) :: frames) (htype : f.type ≠ MsgType.eventData.toByte)
      (hws : t.ws = s.ws) (hrequests : t.requests = s.requests)
      (haccepted : t.accepted = s.accepted) (hhandled : t.handled = s.handled)

/-- The statistics are exempt from the idempotency check, and leave the server as it is. -/
theorem stats_eq (ringSize : ℕ) (ws : WsServer) (body : Bytes) :
    (ws.stats ringSize body).1 = ws := by
  have hexempt : WsServer.exempt (JsString.ofString "$SYS.stats") = true := by decide
  simp [WsServer.stats, WsServer.dispatchEvent, WsServer.suppresses, hexempt]

/-- A step of the broker leaves the gateway's clients alone. -/
theorem serves_of_brokerStep {b : Broker.Action} {u : State} (ha : a ≠ .handle)
    (hu : u.ws = s.ws ∧ u.requests = s.requests ∧ u.accepted = s.accepted ∧ u.handled = s.handled)
    (h : u.brokerStep cfg b = some t) : Serves cfg s a t := by
  obtain ⟨broker, -, rfl⟩ := Option.map_eq_some_iff.mp h
  exact .nothing ha hu.1 hu.2.1 hu.2.2.1 hu.2.2.2

/-- The gateway learns that it is connected: it sends what the server's handler sends, and then what
has waited, unless that handler throws. -/
theorem step_connect_eq (h : s.step cfg .connect = some t) :
    (s.idle = true ∧ s.link.isSome = true ∧ s.tcp.connected = false) ∧ ∃ tcp up crashed,
      Sends { s with tcp := s.tcp.onConnect.1 }
        (s.ws.onConnect.frames ++ if s.ws.onConnect.threw then [] else s.tcp.onConnect.2) tcp up ∧
      t = { s with
        ws := s.ws.onConnect.server, tcp, up, crashed
        link := if s.ws.onConnect.threw then none else s.link
        since := s.requests.length } := by
  simp only [State.step] at h
  by_cases hcond : (s.idle && s.link.isSome && !s.tcp.connected) = true
  · rw [if_pos hcond] at h
    obtain rfl := Option.some.inj h
    obtain ⟨tcp, up, crashed, heq, hsends⟩ := State.turn_eq
      { s with tcp := s.tcp.onConnect.1, since := s.requests.length }
      { s.ws.onConnect with frames := s.ws.onConnect.frames ++
        if s.ws.onConnect.threw then [] else s.tcp.onConnect.2 }
    exact ⟨by simpa [and_assoc] using hcond, tcp, up, crashed, hsends.congr rfl rfl rfl, heq⟩
  · rw [if_neg hcond] at h
    cases h

/-- Every step of the system does one of these things. -/
theorem step_serves (h : s.step cfg a = some t) : Serves cfg s a t := by
  cases a with
  | broker b =>
    have hsame : s.brokerStep cfg b = some t := by
      simp only [State.step] at h
      split at h
      · split_ifs at h
        exact h
      · exact h
    exact serves_of_brokerStep (by simp) ⟨rfl, rfl, rfl, rfl⟩ hsame
  | dial sock =>
    simp only [State.step] at h
    split_ifs at h
    obtain ⟨broker, -, rfl⟩ := Option.map_eq_some_iff.mp h
    exact .nothing (by simp) rfl rfl rfl rfl
  | connect =>
    obtain ⟨-, tcp, up, crashed, -, rfl⟩ := step_connect_eq h
    exact .nothing (by simp) rfl rfl rfl rfl
  | upstream n =>
    simp only [State.step] at h
    split at h
    · cases h
    · rename_i rest _
      exact serves_of_brokerStep (u := { s with up := Function.update s.up n rest }) (by simp)
        ⟨rfl, rfl, rfl, rfl⟩ h
  | data k =>
    simp only [State.step] at h
    split_ifs at h
    obtain rfl := Option.some.inj h
    exact .nothing (by simp) rfl rfl rfl rfl
  | handle =>
    simp only [State.step] at h
    split at h
    · cases h
    · rename_i f dispatch frames hframes
      obtain rfl := Option.some.inj h
      by_cases htype : f.type = MsgType.eventData.toByte
      · refine .event f dispatch frames rfl hframes htype ?_ ?_ ?_ ?_
        all_goals simp [State.onFrame, WsServer.onFrame, htype, State.record]
      · refine .other rfl f dispatch frames hframes htype ?_ ?_ ?_ ?_
        all_goals simp [State.onFrame, WsServer.onFrame, htype]
  | close =>
    simp only [State.step] at h
    split_ifs at h
    obtain rfl := Option.some.inj h
    exact .nothing (by simp) rfl rfl rfl rfl
  | wsConnect =>
    simp only [State.step] at h
    split_ifs at h
    obtain rfl := Option.some.inj h
    exact .connected rfl rfl rfl rfl rfl
  | wsMessage w m =>
    simp only [State.step] at h
    split_ifs at h
    obtain rfl := Option.some.inj h
    obtain ⟨tcp, up, crashed, heq, -⟩ := State.turn_eq
      { s with requests := s.requests ++ s.requested w m, acks := s.acks ++ State.acknowledged m }
      (s.ws.handleMessage w m)
    rw [heq]
    -- Every message but a subscription of a tracked client leaves the server as it is.
    have hnothing : (s.ws.handleMessage w m).server = s.ws → s.requested w m = [] →
        Serves cfg s (.wsMessage w m) { s with
          ws := (s.ws.handleMessage w m).server, tcp, up, crashed
          link := if (s.ws.handleMessage w m).threw then none else s.link
          requests := s.requests ++ s.requested w m
          acks := s.acks ++ State.acknowledged m } := fun hws hnone =>
      .nothing (by simp) hws (by simp [hnone]) rfl rfl
    cases m with
    | subscribe topic group =>
      by_cases htopic : topic = []
      · exact hnothing (by simp [WsServer.handleMessage, htopic])
          (by simp [State.requested, htopic])
      · cases hlookup : s.ws.clientTopics.lookup w with
        | none =>
          exact hnothing (by simp [WsServer.handleMessage, htopic, WsServer.subscribe, hlookup])
            (by simp [State.requested, hlookup])
        | some topics =>
          refine .subscribed w topic group topics rfl htopic hlookup ?_ ?_ rfl rfl
          · simp only [WsServer.handleMessage, List.isEmpty_iff, htopic, if_false,
              WsServer.subscribe, hlookup]
            cases Gateway.encodeSubscribe topic group 0 <;> rfl
          · simp [State.requested, htopic, hlookup]
    | publish topic body =>
      refine hnothing ?_ rfl
      simp only [WsServer.handleMessage]
      split_ifs
      · rfl
      · exact s.ws.sendFrame_server _ _
    | ack msgId | nack msgId =>
      cases msgId with
      | none => exact hnothing rfl rfl
      | some msgId => exact hnothing (s.ws.sendFrame_server _ _) rfl
    | invalid | unknown | throws => exact hnothing rfl rfl
  | wsClosing w =>
    simp only [State.step] at h
    split_ifs at h
    obtain rfl := Option.some.inj h
    exact .closing w rfl rfl rfl rfl rfl
  | wsClose w =>
    simp only [State.step] at h
    split_ifs at h
    obtain rfl := Option.some.inj h
    exact .closed w rfl rfl rfl rfl rfl
  | stats body =>
    simp only [State.step] at h
    split_ifs at h
    obtain rfl := Option.some.inj h
    exact .nothing (by simp) (stats_eq cfg.ringSize s.ws body) rfl rfl rfl
  | heartbeat =>
    simp only [State.step] at h
    split_ifs at h
    obtain ⟨frame, -, rfl⟩ := Option.map_eq_some_iff.mp h
    obtain ⟨tcp, up, heq, -⟩ := s.send_eq frame
    rw [heq]
    exact .nothing (by simp) rfl rfl rfl rfl

/-! ## What every run keeps -/

/-- What the gateway's tables have to do with what its clients have requested. -/
structure Served (cfg : Config) (s : State) : Prop where
  /-- The two maps are inverse to each other. -/
  indexed : s.ws.Indexed
  /-- Only a client that has connected has requested something. -/
  known : ∀ w p g, (w, p, g) ∈ s.requests → w < s.ws.sockets.length
  /-- What is tracked was requested. -/
  requested : ∀ w p, s.ws.Has w p → ∃ g, (w, p, g) ∈ s.requests
  /-- What an open client has requested is tracked. -/
  tracked : ∀ w p g, (w, p, g) ∈ s.requests → s.ws.isOpen w = true → s.ws.Has w p
  /-- Every topic of the table was requested. -/
  listed : ∀ p clients, s.ws.topicClients.lookup p = some clients → ∃ w g, (w, p, g) ∈ s.requests
  /-- The ring is the window of the last identifiers accepted. -/
  window : Gateway.Ring.Window cfg.ringSize s.accepted s.ws.ring

/-- A client that is open after a step was open before it, unless it connected in the step. -/
theorem Serves.isOpen (h : Serves cfg s a t) {w : Ws} (hw : w < s.ws.sockets.length)
    (hopen : t.ws.isOpen w = true) : s.ws.isOpen w = true := by
  cases h with
  | nothing ha hws | other ha f dispatch frames hframes htype hws =>
    rw [hws] at hopen
    exact hopen
  | connected ha hws =>
    rw [hws] at hopen
    exact (WsServer.isOpen_connection.mp hopen).resolve_right hw.ne
  | subscribed w' topic group topics ha htopic hlookup hws =>
    rw [hws] at hopen
    exact hopen
  | closing w' ha hws =>
    rw [hws] at hopen
    exact (WsServer.isOpen_closing.mp hopen).1
  | closed w' ha hws =>
    rw [hws] at hopen
    exact (WsServer.isOpen_close.mp hopen).1
  | event f dispatch frames ha hframes htype hws =>
    rw [hws, WsServer.dispatchEvent_fst] at hopen
    exact hopen

/-- Nothing is requested at first. -/
theorem served_start {file : Bytes} {order : List Broker.Message}
    (h : State.start cfg file order = some s) : Served cfg s := by
  obtain ⟨broker, -, rfl⟩ := Option.map_eq_some_iff.mp h
  refine ⟨WsServer.indexed_create, ?_, ?_, ?_, ?_, Gateway.Ring.window_empty _⟩
  · intro w p g hmem
    cases hmem
  · rintro w p ⟨topics, hlookup, -⟩
    simp [State.beside, WsServer.create] at hlookup
  · intro w p g hmem
    cases hmem
  · intro p clients hlookup
    simp [State.beside, WsServer.create] at hlookup

/-- A step that changes neither the tables nor the histories keeps them served. -/
theorem Served.congr (hs : Served cfg s) (hws : t.ws = s.ws) (hrequests : t.requests = s.requests)
    (haccepted : t.accepted = s.accepted) : Served cfg t := by
  refine ⟨hws ▸ hs.indexed, ?_, ?_, ?_, ?_, ?_⟩
  · rw [hrequests, hws]
    exact hs.known
  · rw [hrequests, hws]
    exact hs.requested
  · rw [hrequests, hws]
    exact hs.tracked
  · rw [hrequests, hws]
    exact hs.listed
  · rw [haccepted, hws]
    exact hs.window

/-- Every step keeps them served. -/
theorem Served.step (hs : Served cfg s) (h : s.step cfg a = some t) : Served cfg t := by
  -- One case for each thing that a step can do to the tables.
  cases step_serves h with
  | nothing ha hws hrequests haccepted => exact hs.congr hws hrequests haccepted
  | other ha f dispatch frames hframes htype hws hrequests haccepted =>
    exact hs.congr hws hrequests haccepted
  | connected ha hws hrequests haccepted =>
    -- A new client has requested nothing, and the others have what they had.
    have hhas : ∀ w p, s.ws.connection.Has w p → s.ws.Has w p := by
      intro w p hhas
      exact (hs.indexed.inverse w p).mpr ((hs.indexed.connection.inverse w p).mp hhas)
    refine ⟨hws ▸ hs.indexed.connection, ?_, ?_, ?_, ?_, ?_⟩ <;> rw [hws]
    · rw [hrequests]
      intro w p g hmem
      exact lt_of_lt_of_le (hs.known w p g hmem) (by simp [WsServer.connection])
    · rw [hrequests]
      exact fun w p h => hs.requested w p (hhas w p h)
    · rw [hrequests]
      intro w p g hmem hopen
      have hwas := (WsServer.isOpen_connection.mp hopen).resolve_right (hs.known w p g hmem).ne
      exact (hs.indexed.connection.inverse w p).mpr
        ((hs.indexed.inverse w p).mp (hs.tracked w p g hmem hwas))
    · rw [hrequests]
      exact hs.listed
    · rw [haccepted]
      exact hs.window
  | subscribed w topic group topics ha htopic hlookup hws hrequests haccepted =>
    -- The request and its entry in the tables come together.
    refine ⟨hws ▸ hs.indexed.track hlookup, ?_, ?_, ?_, ?_, ?_⟩ <;> rw [hws]
    · intro w' p g hmem
      rcases List.mem_append.mp (hrequests ▸ hmem) with hmem | hmem
      · exact hs.known w' p g hmem
      · obtain ⟨rfl, rfl, rfl⟩ : w' = w ∧ p = topic ∧ g = group := by simpa using hmem
        exact hs.indexed.known w' (by rw [hlookup]; rfl)
    · intro w' p hhas
      rcases (WsServer.has_track hlookup).mp hhas with hhas | ⟨rfl, rfl⟩
      · obtain ⟨g, hmem⟩ := hs.requested w' p hhas
        exact ⟨g, hrequests ▸ List.mem_append_left _ hmem⟩
      · exact ⟨group, hrequests ▸ List.mem_append_right _ (List.mem_singleton_self _)⟩
    · intro w' p g hmem hopen
      rw [WsServer.has_track hlookup]
      rcases List.mem_append.mp (hrequests ▸ hmem) with hmem | hmem
      · exact .inl (hs.tracked w' p g hmem hopen)
      · obtain ⟨rfl, rfl, rfl⟩ : w' = w ∧ p = topic ∧ g = group := by simpa using hmem
        exact .inr ⟨rfl, rfl⟩
    · intro p clients hclients
      simp only [WsServer.track, AList.lookup_set] at hclients
      split_ifs at hclients with heq
      · exact ⟨w, group, hrequests ▸ List.mem_append_right _ (by simp [heq])⟩
      · obtain ⟨w', g, hmem⟩ := hs.listed p clients hclients
        exact ⟨w', g, hrequests ▸ List.mem_append_left _ hmem⟩
    · rw [haccepted]
      exact hs.window
  | closing w ha hws hrequests haccepted =>
    -- A closing client keeps its entries, and is sent nothing more.
    refine ⟨hws ▸ hs.indexed.closing w, ?_, ?_, ?_, ?_, ?_⟩ <;> rw [hws]
    · rw [hrequests]
      intro w' p g hmem
      simpa [WsServer.closing] using hs.known w' p g hmem
    · rw [hrequests]
      exact hs.requested
    · rw [hrequests]
      exact fun w' p g hmem hopen =>
        hs.tracked w' p g hmem (WsServer.isOpen_closing.mp hopen).1
    · rw [hrequests]
      exact hs.listed
    · rw [haccepted]
      exact hs.window
  | closed w ha hws hrequests haccepted =>
    -- The entries of a closed client go, and only they.
    refine ⟨hws ▸ hs.indexed.close w, ?_, ?_, ?_, ?_, ?_⟩ <;> rw [hws]
    · rw [hrequests]
      intro w' p g hmem
      simpa [WsServer.close, WsServer.cleanupClient] using hs.known w' p g hmem
    · rw [hrequests]
      exact fun w' p hhas => hs.requested w' p (WsServer.has_cleanupClient.mp hhas).1
    · rw [hrequests]
      intro w' p g hmem hopen
      obtain ⟨hopen, hne⟩ := WsServer.isOpen_close.mp hopen
      exact WsServer.has_cleanupClient.mpr ⟨hs.tracked w' p g hmem hopen, hne⟩
    · rw [hrequests]
      intro p clients hclients
      obtain ⟨clients', hwas⟩ := WsServer.exists_of_foldl_forget hclients
      exact hs.listed p clients' hwas
    · rw [haccepted]
      exact hs.window
  | event f dispatch frames ha hframes htype hws hrequests haccepted =>
    -- An event changes the ring alone.
    rw [WsServer.dispatchEvent_fst] at hws
    refine ⟨?_, ?_, ?_, ?_, ?_, ?_⟩ <;> rw [hws]
    · exact ⟨hs.indexed.inverse, hs.indexed.known, hs.indexed.opened⟩
    · rw [hrequests]
      exact hs.known
    · rw [hrequests]
      exact hs.requested
    · rw [hrequests]
      exact hs.tracked
    · rw [hrequests]
      exact hs.listed
    · rw [haccepted]
      dsimp only
      split_ifs with hcond
      · exact hs.window
      · -- a frame that is neither suppressed nor exempt has a fresh identifier
        refine hs.window.accept cfg.ringSize_pos ?_
        simp only [Bool.or_eq_true, not_or, Bool.not_eq_true] at hcond
        simpa [WsServer.suppresses, hcond.2] using hcond.1

/-- So does every run. -/
theorem Served.run {ok : State → Action → Prop} {as : List Action} (hs : Served cfg s)
    (hrun : Run (State.step cfg) ok s as t) : Served cfg t :=
  hrun.invariant (fun _ _ _ hs _ h => hs.step h) hs

end EventQueue.Bridge
