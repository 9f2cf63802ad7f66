import EventQueue.Gateway.Protocol
import EventQueue.Gateway.Ring

/-!
# The gateway's WebSocket server

`WsServer` of `gateway/src/wsServer.js`: the handlers of its events, each as a function of the
server's fields. A WebSocket client is the place of its socket in the order of their connections. A
client's message is what `JSON.parse` and the conversions of `#handleMessage` make of its text, and
the body of an event is kept as bytes.

A handler returns the server and what it does to the outside: the frames that it hands to
`tcp.send`, and the messages that it sends to clients. An exception ends the process, since nothing
catches it; it is the field `threw`.

`Indexed` is what the handlers keep of the two maps: every topic of a client has the client in its
set.
-/

namespace EventQueue.Gateway

/-- A WebSocket client. -/
abbrev Ws := ℕ

/-- The `readyState` of a WebSocket. -/
inductive ReadyState
  | OPEN | CLOSING | CLOSED
deriving DecidableEq, Repr

/-- What is sent to a WebSocket client. -/
inductive WsMessage
  /-- An event. -/
  | event (topic : JsString) (msgId : UInt64) (body : Bytes)
  /-- A subscription is made. -/
  | subscribed (topic group : JsString)
  /-- The connection to the broker is there or is gone. -/
  | status (status : JsString)
  /-- A message was not understood. -/
  | error (message : JsString)
deriving DecidableEq, Repr

/-- What a WebSocket client sent. -/
inductive ClientMessage
  /-- A text that `JSON.parse` rejects. -/
  | invalid
  /-- `subscribe`, with an empty string for what is missing. -/
  | subscribe (topic group : JsString)
  /-- `publish`, with the bytes of the body. -/
  | publish (topic : JsString) (body : Bytes)
  /-- `ack`; `none` when there is no `msgId`. -/
  | ack (msgId : Option ℤ)
  /-- `nack`; `none` when there is no `msgId`. -/
  | nack (msgId : Option ℤ)
  /-- Another type. -/
  | unknown (type : JsString)
  /-- A value that a conversion throws on. -/
  | throws
deriving DecidableEq, Repr

/-- The fields of `WsServer`, and the states of the sockets. -/
structure WsServer where
  /-- The state of each socket, in the order of their connections. -/
  sockets : List ReadyState
  /-- What each client has subscribed to. -/
  clientTopics : AList fun _ : Ws => OrderedSet JsString
  /-- Who has subscribed to each pattern. -/
  topicClients : AList fun _ : JsString => OrderedSet Ws
  /-- The fields of the idempotency check. -/
  ring : Ring

/-- What a handler does. -/
structure Turn where
  /-- The server after it. -/
  server : WsServer
  /-- The frames that are handed to `tcp.send`. -/
  frames : List Bytes
  /-- The messages to clients. -/
  sends : List (Ws × WsMessage)
  /-- An exception was thrown. -/
  threw : Bool

namespace WsServer

/-- The server at first. -/
def create : WsServer := ⟨[], ∅, ∅, Ring.empty⟩

/-- The socket of a client is open. -/
def isOpen (s : WsServer) (w : Ws) : Bool := s.sockets[w]? = some .OPEN

/-- The clients whose sockets are open. -/
def openClients (s : WsServer) : List Ws := (List.range s.sockets.length).filter s.isOpen

/-! ## Handlers of a client's events -/

/-- The handler of `connection`. -/
def connection (s : WsServer) : WsServer :=
  { s with
    sockets := s.sockets ++ [.OPEN]
    clientTopics := s.clientTopics.set s.sockets.length OrderedSet.empty }

/-- A frame that an encoder returned is sent, and an exception is passed on. -/
def sendFrame (s : WsServer) (frame : Option Bytes) (sends : List (Ws × WsMessage)) : Turn :=
  match frame with
  | some frame => ⟨s, [frame], sends, false⟩
  | none => ⟨s, [], [], true⟩

/-- What `#subscribe` tracks locally. -/
def track (s : WsServer) (w : Ws) (topic : JsString) (clientSet : OrderedSet JsString) : WsServer :=
  { s with
    clientTopics := s.clientTopics.set w (clientSet.add topic)
    topicClients := s.topicClients.set topic
      (((s.topicClients.lookup topic).getD OrderedSet.empty).add w) }

/-- `#subscribe`. -/
def subscribe (s : WsServer) (w : Ws) (topic group : JsString) : Turn :=
  match s.clientTopics.lookup w with
  | none => ⟨s, [], [], false⟩
  | some clientSet =>
    sendFrame (s.track w topic clientSet) (encodeSubscribe topic group 0)
      [(w, .subscribed topic group)]

/-- `#handleMessage`. -/
def handleMessage (s : WsServer) (w : Ws) : ClientMessage → Turn
  | .invalid => ⟨s, [], [(w, .error (JsString.ofString "Invalid JSON"))], false⟩
  | .subscribe topic group =>
    if topic.isEmpty then ⟨s, [], [], false⟩ else s.subscribe w topic group
  | .publish topic body =>
    if topic.isEmpty then ⟨s, [], [], false⟩
    else s.sendFrame (encodeDataFrame .publish topic body 0) []
  | .ack none | .nack none => ⟨s, [], [], false⟩
  | .ack (some msgId) => s.sendFrame (encodeAck .ack msgId) []
  | .nack (some msgId) => s.sendFrame (encodeAck .nack msgId) []
  | .unknown type =>
    ⟨s, [], [(w, .error (JsString.ofString "Unknown type: " ++ type))], false⟩
  | .throws => ⟨s, [], [], true⟩

/-- The pass of the loop of `#cleanupClient` for one topic. -/
def forget (w : Ws) (topicClients : AList fun _ : JsString => OrderedSet Ws) (topic : JsString) :
    AList fun _ : JsString => OrderedSet Ws :=
  match topicClients.lookup topic with
  | none => topicClients
  | some clients =>
    if (clients.delete w).elems.isEmpty then topicClients.erase topic
    else topicClients.set topic (clients.delete w)

/-- `#cleanupClient`. -/
def cleanupClient (s : WsServer) (w : Ws) : WsServer :=
  { s with
    topicClients := ((s.clientTopics.lookup w).getD OrderedSet.empty).elems.foldl (forget w)
      s.topicClients
    clientTopics := s.clientTopics.erase w }

/-- A socket starts to close. -/
def closing (s : WsServer) (w : Ws) : WsServer := { s with sockets := s.sockets.set w .CLOSING }

/-- The handler of `close`. -/
def close (s : WsServer) (w : Ws) : WsServer :=
  cleanupClient { s with sockets := s.sockets.set w .CLOSED } w

/-! ## Handlers of the broker's events -/

/-- The topics that the idempotency check lets pass. -/
def exempt (topic : JsString) : Bool :=
  (JsString.ofString "$SYS.").isPrefixOf topic || (JsString.ofString "$DLQ.").isPrefixOf topic ||
    (JsString.ofString "chaos.").isPrefixOf topic

/-- The idempotency check drops an event. -/
def suppresses (s : WsServer) (topic : JsString) (msgId : UInt64) : Bool :=
  !exempt topic && s.ring.recentMsgIds.has msgId

/-- The clients that the loop of `#dispatchEvent` sends an event to, in its order. -/
def fanOut (s : WsServer) (topic : JsString) : List Ws :=
  s.topicClients.entries.flatMap fun e =>
    if topicMatches e.1 topic then e.2.elems.filter s.isOpen else []

/-- `#dispatchEvent`, with the number of identifiers that the ring has room for. -/
def dispatchEvent (ringSize : ℕ) (s : WsServer) (topic : JsString) (msgId : UInt64) (body : Bytes) :
    WsServer × List (Ws × WsMessage) :=
  if s.suppresses topic msgId then (s, [])
  else
    ({ s with ring := if exempt topic then s.ring else s.ring.accept ringSize msgId },
      (s.fanOut topic).map fun w => (w, .event topic msgId body))

/-- The handler of `frame`. -/
def onFrame (ringSize : ℕ) (s : WsServer) (f : Frame) : WsServer × List (Ws × WsMessage) :=
  if f.type = MsgType.eventData.toByte then
    let (topic, body) := decodeEventPayload f.payload
    s.dispatchEvent ringSize topic f.msgId body
  else (s, [])

/-- `#broadcastStatus`. -/
def broadcastStatus (s : WsServer) (status : String) : List (Ws × WsMessage) :=
  s.openClients.map fun w => (w, .status (JsString.ofString status))

/-- A frame that is sent before others; when the encoder throws, they are not sent either. -/
def sendBefore (frame : Option Bytes) (rest : List Bytes × Bool) : List Bytes × Bool :=
  match frame with
  | none => ([], true)
  | some frame => (frame :: rest.1, rest.2)

/-- The loop of the handler of `connect`: the SUBSCRIBE frames of some topics, up to one that
throws. -/
def resubscribe (topics : List JsString) : List Bytes × Bool :=
  topics.foldr (fun topic => sendBefore (encodeSubscribe topic [] 0)) ([], false)

/-- The handler of `connect`. -/
def onConnect (s : WsServer) : Turn :=
  ⟨s, (resubscribe s.topicClients.keys).1, s.broadcastStatus "connected",
    (resubscribe s.topicClients.keys).2⟩

/-- The handler of `disconnect`. -/
def onDisconnect (s : WsServer) : List (Ws × WsMessage) := s.broadcastStatus "broker_disconnected"

/-- The tick of the statistics, which are an event of the gateway's own. -/
def stats (ringSize : ℕ) (s : WsServer) (body : Bytes) : WsServer × List (Ws × WsMessage) :=
  s.dispatchEvent ringSize (JsString.ofString "$SYS.stats") 0 body

/-! ## What the handlers do to the maps -/

variable {s : WsServer} {w w' : Ws} {topic topic' : JsString}

/-- The client has subscribed to the topic. -/
def Has (s : WsServer) (w : Ws) (topic : JsString) : Prop :=
  ∃ topics, s.clientTopics.lookup w = some topics ∧ topic ∈ topics.elems

/-- The topic has the client in its set. -/
def Lists (s : WsServer) (topic : JsString) (w : Ws) : Prop :=
  ∃ clients, s.topicClients.lookup topic = some clients ∧ w ∈ clients.elems

/-- Sending a frame leaves the server as it is. -/
theorem sendFrame_server (s : WsServer) (frame : Option Bytes) (sends : List (Ws × WsMessage)) :
    (s.sendFrame frame sends).server = s := by
  cases frame <;> rfl

/-- What the handlers keep of the two maps. -/
structure Indexed (s : WsServer) : Prop where
  /-- A topic of a client has the client in its set, and no other set has. -/
  inverse : ∀ w topic, s.Has w topic ↔ s.Lists topic w
  /-- Only clients that have connected are tracked. -/
  known : ∀ w, (s.clientTopics.lookup w).isSome = true → w < s.sockets.length
  /-- A client whose socket is open is tracked. -/
  opened : ∀ w, s.isOpen w = true → (s.clientTopics.lookup w).isSome = true

theorem indexed_create : Indexed create where
  inverse w topic := by simp [Has, Lists, create]
  known w h := by simp [create] at h
  opened w h := by simp [isOpen, create] at h

/-- What clients have subscribed to, after one more subscription was tracked. -/
theorem has_track {clientSet : OrderedSet JsString} (h : s.clientTopics.lookup w = some clientSet) :
    (s.track w topic clientSet).Has w' topic' ↔ s.Has w' topic' ∨ w' = w ∧ topic' = topic := by
  simp only [Has, track, AList.lookup_set]
  by_cases hw : w' = w
  · subst hw
    simp [h]
  · simp [hw]

/-- Who is in the sets of topics, after one more subscription was tracked. -/
theorem lists_track {clientSet : OrderedSet JsString} :
    (s.track w topic clientSet).Lists topic' w' ↔ s.Lists topic' w' ∨ topic' = topic ∧ w' = w := by
  simp only [Lists, track, AList.lookup_set]
  by_cases ht : topic' = topic
  · subst ht
    cases s.topicClients.lookup topic' <;> simp
  · simp [ht]

/-- A pass of the clean-up takes a client out of one set. -/
theorem lists_forget {topicClients : AList fun _ : JsString => OrderedSet Ws} :
    (∃ clients, (forget w topicClients topic).lookup topic' = some clients ∧ w' ∈ clients.elems) ↔
      (∃ clients, topicClients.lookup topic' = some clients ∧ w' ∈ clients.elems) ∧
        ¬(topic' = topic ∧ w' = w) := by
  unfold forget
  cases hlookup : topicClients.lookup topic with
  | none =>
    constructor
    · rintro ⟨clients, hclients, hmem⟩
      refine ⟨⟨clients, hclients, hmem⟩, ?_⟩
      rintro ⟨rfl, -⟩
      simp [hlookup] at hclients
    · exact And.left
  | some clients₀ =>
    by_cases ht : topic' = topic
    · subst ht
      dsimp only
      split_ifs with hempty
      · -- the client was the only one in the set
        have hnone : ∀ x, ¬(x ∈ clients₀.elems ∧ x ≠ w) := by
          intro x hx
          have := OrderedSet.mem_elems_delete.mpr hx
          simp [List.isEmpty_iff.mp hempty] at this
        simp only [AList.lookup_erase, hlookup]
        constructor
        · rintro ⟨clients, hclients, -⟩
          cases hclients
        · rintro ⟨⟨clients, hclients, hmem⟩, hne⟩
          obtain rfl := Option.some.inj hclients
          exact absurd ⟨hmem, fun hw => hne ⟨trivial, hw⟩⟩ (hnone w')
      · simp [AList.lookup_set, hlookup]
    · dsimp only
      split_ifs with hempty
      · simp [ht]
      · simp [AList.lookup_set, ht]

/-- The clean-up takes a client out of the sets of its topics. -/
theorem lists_foldl_forget {topics : List JsString}
    {topicClients : AList fun _ : JsString => OrderedSet Ws} :
    (∃ clients, (topics.foldl (forget w) topicClients).lookup topic' = some clients ∧
        w' ∈ clients.elems) ↔
      (∃ clients, topicClients.lookup topic' = some clients ∧ w' ∈ clients.elems) ∧
        ¬(topic' ∈ topics ∧ w' = w) := by
  induction topics generalizing topicClients with
  | nil => simp
  | cons topic topics ih =>
    rw [List.foldl_cons, ih, lists_forget, and_assoc]
    refine and_congr_right fun _ => ?_
    rw [List.mem_cons, or_and_right, not_or]

/-- The clean-up adds no topic. -/
theorem exists_of_foldl_forget {topics : List JsString}
    {topicClients : AList fun _ : JsString => OrderedSet Ws} {clients : OrderedSet Ws}
    (h : (topics.foldl (forget w) topicClients).lookup topic = some clients) :
    ∃ clients, topicClients.lookup topic = some clients := by
  induction topics generalizing topicClients with
  | nil => exact ⟨clients, h⟩
  | cons topic' topics ih =>
    obtain ⟨clients', hclients'⟩ := ih h
    unfold forget at hclients'
    split at hclients'
    · exact ⟨clients', hclients'⟩
    · rename_i clients₀ hlookup
      by_cases heq : topic = topic'
      · exact ⟨clients₀, heq ▸ hlookup⟩
      · split_ifs at hclients'
        · exact ⟨clients', by rwa [AList.lookup_erase_ne heq] at hclients'⟩
        · exact ⟨clients', by rwa [AList.lookup_set, if_neg heq] at hclients'⟩

/-- Who is in the sets of topics, after a client's subscriptions were cleaned up. -/
theorem lists_cleanupClient :
    (s.cleanupClient w).Lists topic' w' ↔ s.Lists topic' w' ∧ ¬(s.Has w topic' ∧ w' = w) := by
  rw [Lists, cleanupClient, lists_foldl_forget]
  refine and_congr_right fun _ => not_congr (and_congr_left fun _ => ?_)
  unfold Has
  cases s.clientTopics.lookup w with
  | none => simp
  | some topics => simp

/-- What clients have subscribed to, after one was cleaned up. -/
theorem has_cleanupClient : (s.cleanupClient w).Has w' topic' ↔ s.Has w' topic' ∧ w' ≠ w := by
  simp only [Has, cleanupClient, AList.lookup_erase_eq]
  by_cases hw : w' = w
  · simp [hw]
  · simp [hw]

/-- A new socket is open, and the others are as they were. -/
theorem isOpen_connection :
    s.connection.isOpen w = true ↔ s.isOpen w = true ∨ w = s.sockets.length := by
  simp only [isOpen, connection, decide_eq_true_eq, List.getElem?_append]
  rcases lt_trichotomy w s.sockets.length with hlt | rfl | hgt
  · simp [hlt, hlt.ne]
  · simp
  · have hsub : w - s.sockets.length ≠ 0 := Nat.sub_ne_zero_of_lt hgt
    simp [hgt.not_gt, hgt.ne', hsub]

/-- A socket that starts to close is not open any more. -/
theorem isOpen_closing : (s.closing w).isOpen w' = true ↔ s.isOpen w' = true ∧ w' ≠ w := by
  simp only [isOpen, closing, List.getElem?_set, decide_eq_true_eq]
  by_cases heq : w = w'
  · subst heq
    simp
  · simp [heq, Ne.symm heq]

/-- Nor is one that has closed. -/
theorem isOpen_close : (s.close w).isOpen w' = true ↔ s.isOpen w' = true ∧ w' ≠ w := by
  simp only [isOpen, close, cleanupClient, List.getElem?_set, decide_eq_true_eq]
  by_cases heq : w = w'
  · subst heq
    simp
  · simp [heq, Ne.symm heq]

/-- A new connection keeps the maps. -/
theorem Indexed.connection (h : s.Indexed) : s.connection.Indexed := by
  -- A client that is new has no set yet.
  have hfresh : s.clientTopics.lookup s.sockets.length = none := by
    by_contra hne
    exact absurd (h.known _ (Option.isSome_iff_ne_none.mpr hne)) (lt_irrefl _)
  have hlookup : ∀ w, s.connection.clientTopics.lookup w =
      if w = s.sockets.length then some OrderedSet.empty else s.clientTopics.lookup w := fun w =>
    AList.lookup_set _ _ _ _
  refine ⟨fun w topic => ?_, fun w hw => ?_, fun w hw => ?_⟩
  · have hhas : s.connection.Has w topic ↔ s.Has w topic := by
      unfold Has
      rw [hlookup]
      split_ifs with heq
      · rw [heq, hfresh]
        simp
      · rfl
    rw [hhas, h.inverse]
    rfl
  · rw [hlookup] at hw
    simp only [WsServer.connection, List.length_append, List.length_singleton]
    split_ifs at hw with heq
    · rw [heq]
      exact Nat.lt_succ_self _
    · exact Nat.lt_succ_of_lt (h.known w hw)
  · rw [hlookup]
    split_ifs with heq
    · rfl
    · exact h.opened w ((isOpen_connection.mp hw).resolve_right heq)

/-- Tracking a subscription keeps the maps. -/
theorem Indexed.track (h : s.Indexed) {clientSet : OrderedSet JsString}
    (hlookup : s.clientTopics.lookup w = some clientSet) : (s.track w topic clientSet).Indexed where
  inverse w' topic' := by rw [has_track hlookup, lists_track, h.inverse, and_comm (a := w' = w)]
  known w' hw' := by
    simp only [WsServer.track, AList.lookup_set] at hw'
    split_ifs at hw' with heq
    · exact h.known w' (by rw [heq, hlookup]; rfl)
    · exact h.known w' hw'
  opened w' hw' := by
    simp only [WsServer.track, AList.lookup_set]
    split_ifs
    · rfl
    · exact h.opened w' hw'

/-- A socket that starts to close keeps the maps. -/
theorem Indexed.closing (h : s.Indexed) (w : Ws) : (s.closing w).Indexed where
  inverse := h.inverse
  known w' hw' := by simpa [WsServer.closing] using h.known w' hw'
  opened w' hw' := h.opened w' (isOpen_closing.mp hw').1

/-- A client that has closed is in neither map, and the others are where they were. -/
theorem Indexed.close (h : s.Indexed) (w : Ws) : (s.close w).Indexed := by
  refine ⟨fun w' topic => ?_, fun w' hw' => ?_, fun w' hw' => ?_⟩
  · have hhas : (s.close w).Has w' topic ↔ s.Has w' topic ∧ w' ≠ w := has_cleanupClient
    have hlists : (s.close w).Lists topic w' ↔ s.Lists topic w' ∧ ¬(s.Has w topic ∧ w' = w) :=
      lists_cleanupClient
    rw [hhas, hlists, ← h.inverse]
    refine and_congr_right fun hmem => ?_
    constructor
    · exact fun hne heq => hne heq.2
    · rintro hne rfl
      exact hne ⟨hmem, rfl⟩
  · simp only [WsServer.close, cleanupClient, AList.lookup_erase_eq] at hw'
    split_ifs at hw' with heq
    · cases hw'
    · simpa [WsServer.close, cleanupClient] using h.known w' hw'
  · have hopen := isOpen_close.mp hw'
    simp only [WsServer.close, cleanupClient, AList.lookup_erase_eq, if_neg hopen.2]
    exact h.opened w' hopen.1

/-- An event changes the ring only, and that only when its identifier is accepted. -/
theorem dispatchEvent_fst {ringSize : ℕ} {msgId : UInt64} {body : Bytes} :
    (s.dispatchEvent ringSize topic msgId body).1 = { s with
      ring := if s.suppresses topic msgId || exempt topic then s.ring
        else s.ring.accept ringSize msgId } := by
  unfold dispatchEvent
  cases hsuppresses : s.suppresses topic msgId with
  | true => simp
  | false => simp

/-- The loop of `#dispatchEvent` reaches the open clients in the sets of the patterns that match. -/
theorem mem_fanOut :
    w ∈ s.fanOut topic ↔
      s.isOpen w = true ∧ ∃ pattern, topicMatches pattern topic = true ∧ s.Lists pattern w := by
  simp only [fanOut, List.mem_flatMap, Lists]
  constructor
  · rintro ⟨⟨pattern, clients⟩, hmem, hw⟩
    split_ifs at hw with hmatch
    · obtain ⟨hw, hopen⟩ := List.mem_filter.mp hw
      exact ⟨hopen, pattern, hmatch, clients, AList.mem_entries_iff.mp hmem, hw⟩
    · cases hw
  · rintro ⟨hopen, pattern, hmatch, clients, hlookup, hw⟩
    refine ⟨⟨pattern, clients⟩, AList.mem_entries_iff.mpr hlookup, ?_⟩
    rw [if_pos hmatch]
    exact List.mem_filter.mpr ⟨hw, hopen⟩

end WsServer

end EventQueue.Gateway
