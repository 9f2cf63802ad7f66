import EventQueue.Broker.Main
import EventQueue.Gateway.TcpClient
import EventQueue.Gateway.WsServer

/-!
# The broker and the gateway together

One broker, with whatever other clients it has, one gateway, and the gateway's WebSocket clients. A
step is an atomic action of the broker, or a whole turn of the gateway's event loop; only the frames
that one chunk of bytes brings are handled one by one, with nothing of the gateway in between.

What the gateway sends travels as frames, which the broker takes in order (`framers_read_stream`
says that it finds them in the bytes). What the broker sends travels as bytes, which the gateway
gets in chunks of any size. A connection can break at any moment, and takes what is under way with
it. The kernel may have accepted a connection (`dial`) before the gateway learns of it (`connect`).

Ghosts are the numbers of the dispatches that the bytes belong to, and the histories of what was
requested, accepted, acknowledged, and handled.
-/

namespace EventQueue.Bridge

open Gateway (Frame MsgType Turn TcpView Ws WsServer ClientMessage)

/-- The settings. -/
structure Config where
  /-- Those of the broker. -/
  broker : Broker.Config
  /-- The number of identifiers that the gateway's ring has room for. -/
  ringSize : ℕ
  /-- It has room. -/
  ringSize_pos : 0 < ringSize

/-- The settings of the source. -/
def Config.ofBroker (broker : Broker.Config) : Config := ⟨broker, Gateway.RING_SIZE, by decide⟩

/-- Ghost: an EVENT_DATA frame that the gateway handled. -/
structure Handled where
  /-- Its topic. -/
  topic : JsString
  /-- Its identifier. -/
  msgId : UInt64
  /-- The dispatch that it belongs to. -/
  dispatch : ℕ
  /-- The open clients that have a pattern which matches the topic. -/
  wanted : List Ws
  /-- The clients that the event was sent to. -/
  sent : List Ws
  /-- The idempotency check dropped it. -/
  suppressed : Bool
  /-- A client had acknowledged the message before. -/
  acked : Bool
  /-- The identifiers that the check had accepted before, oldest first. -/
  accepted : List UInt64
deriving DecidableEq, Repr

/-- The state of the two processes and of what is under way between them. -/
structure State where
  /-- The broker. -/
  broker : Broker.State
  /-- The gateway's connection. -/
  tcp : TcpView
  /-- The gateway's WebSocket server. -/
  ws : WsServer
  /-- The connection of the broker that the gateway's socket belongs to. -/
  link : Option ℕ
  /-- The connections of the broker that were the gateway's, also those that are gone. -/
  own : List ℕ
  /-- The frames on their way to the broker, for each of its connections. -/
  up : ℕ → List Bytes
  /-- The bytes on their way to the gateway, with the dispatches that they belong to. -/
  down : List (UInt8 × ℕ)
  /-- Ghost: the dispatches that the pending bytes belong to. -/
  labels : List ℕ
  /-- The frames of a chunk that are not handled yet, with their dispatches. -/
  frames : List (Frame × ℕ)
  /-- An exception has ended the gateway's process. -/
  crashed : Bool
  /-- Ghost: the subscriptions that clients have requested. -/
  requests : List (Ws × JsString × JsString)
  /-- Ghost: how many of them were requested before the gateway was last connected. -/
  since : ℕ
  /-- Ghost: the identifiers that the idempotency check has accepted. -/
  accepted : List UInt64
  /-- Ghost: the identifiers that clients have acknowledged. -/
  acks : List ℤ
  /-- Ghost: the events that were handled. -/
  handled : List Handled

/-- What can happen. -/
inductive Action
  /-- An action of the broker; a frame is one of another client. -/
  | broker (a : Broker.Action)
  /-- The broker accepts a connection of the gateway. -/
  | dial (sock : Broker.ClientId)
  /-- The gateway learns that it is connected. -/
  | connect
  /-- The broker takes a frame from a connection of the gateway. -/
  | upstream (n : ℕ)
  /-- The gateway gets a chunk of so many bytes. -/
  | data (k : ℕ)
  /-- The gateway handles the next frame of the chunk. -/
  | handle
  /-- The gateway's socket is closed. -/
  | close
  /-- A WebSocket client connects. -/
  | wsConnect
  /-- A WebSocket client's message is handled. -/
  | wsMessage (w : Ws) (m : ClientMessage)
  /-- A WebSocket starts to close. -/
  | wsClosing (w : Ws)
  /-- A WebSocket has closed. -/
  | wsClose (w : Ws)
  /-- The gateway's timer sends its statistics. -/
  | stats (body : Bytes)
  /-- The gateway's timer sends a heartbeat. -/
  | heartbeat
deriving DecidableEq, Repr

namespace State

/-! ## Steps -/

/-- What an action of the broker writes to which connection: an EVENT_DATA frame, or the answer to a
heartbeat. -/
def written (b : Broker.State) : Broker.Action → Option (ℕ × Bytes)
  | .send =>
    match b.dispatcher with
    | .sending m t _ => (b.clients.lookup t.client_id).map fun n =>
        (n, Broker.encodeFrame .eventData m.msg_id m.topic m.body)
    | _ => none
  | .frame n type _ _ =>
    if Broker.MessageType.ofByte type = some .heartbeat then
      (b.conns[n]?.bind fun c => b.clients.lookup c.sock).map fun n =>
        (n, Broker.encodeAckFrame .heartbeat 0)
    else none
  | _ => none

/-- The number of messages that the broker has routed to targets. -/
def dispatches (b : Broker.State) : ℕ :=
  b.trace.countP fun
    | .routed .. => true
    | _ => false

/-- An action of the broker, and the bytes that it sends to the gateway. -/
def brokerStep (cfg : Config) (s : State) (a : Broker.Action) : Option State :=
  (s.broker.step cfg.broker a).map fun broker =>
    { s with
      broker
      down := s.down ++ match written s.broker a with
        | some (n, bytes) =>
          if s.link = some n then bytes.map fun b => (b, dispatches s.broker) else []
        | none => [] }

/-- `tcp.send`. What is written to a socket that was destroyed is lost. -/
def send (s : State) (frame : Bytes) : State :=
  match s.tcp.send frame, s.link with
  | (tcp, some frame), some n =>
    { s with tcp, up := if tcp.destroyed then s.up else Function.update s.up n (s.up n ++ [frame]) }
  | (tcp, _), _ => { s with tcp }

/-- What a handler of the WebSocket server does to the system. -/
def turn (s : State) (t : Turn) : State :=
  let s := t.frames.foldl send { s with ws := t.server }
  if t.threw then { s with crashed := true, link := none } else s

/-- The gateway is between two turns. -/
def idle (s : State) : Bool := s.frames.isEmpty && !s.crashed

/-- The frames of a chunk with the dispatches of their bytes. -/
def labelled : List Frame → List ℕ → List (Frame × ℕ)
  | [], _ => []
  | f :: frames, labels =>
    (f, labels.headD 0) :: labelled frames (labels.drop (Gateway.HEADER_SIZE + f.payload.length))

/-- The open clients that have a pattern which matches a topic. -/
def wanted (ws : WsServer) (topic : JsString) : List Ws :=
  ws.openClients.filter fun w =>
    ((ws.clientTopics.lookup w).getD OrderedSet.empty).elems.any (Gateway.topicMatches · topic)

/-- The frame of a handled event. -/
def record (s : State) (f : Frame) (dispatch : ℕ) (sent : List Ws) : Handled :=
  let topic := (Gateway.decodeEventPayload f.payload).1
  { topic, dispatch, sent
    msgId := f.msgId
    wanted := wanted s.ws topic
    suppressed := s.ws.suppresses topic f.msgId
    acked := (f.msgId.toNat : ℤ) ∈ s.acks
    accepted := s.accepted }

/-- The handler of a frame. -/
def onFrame (cfg : Config) (s : State) (f : Frame) (dispatch : ℕ) : State :=
  let (ws, sends) := s.ws.onFrame cfg.ringSize f
  if f.type = MsgType.eventData.toByte then
    let h := s.record f dispatch (sends.map Prod.fst)
    { s with
      ws
      handled := s.handled ++ [h]
      accepted := if h.suppressed || WsServer.exempt h.topic then s.accepted
        else s.accepted ++ [f.msgId] }
  else { s with ws }

/-- The subscription that a message requests, of a client that is tracked. -/
def requested (s : State) (w : Ws) : ClientMessage → List (Ws × JsString × JsString)
  | .subscribe topic group =>
    if topic.isEmpty || (s.ws.clientTopics.lookup w).isNone then [] else [(w, topic, group)]
  | _ => []

/-- The identifier that a message acknowledges. -/
def acknowledged : ClientMessage → List ℤ
  | .ack (some msgId) => [msgId]
  | _ => []

/-- One step of the system; `none` when the action is not enabled. -/
def step (cfg : Config) (s : State) : Action → Option State
  | .broker a =>
    match a with
    | .frame n .. => if n ∈ s.own then none else s.brokerStep cfg a
    | _ => s.brokerStep cfg a
  | .dial sock =>
    if s.link.isNone && !s.tcp.connected && !s.crashed then
      (s.broker.step cfg.broker (.accept sock)).map fun broker =>
        { s with
          broker
          link := some s.broker.conns.length
          own := s.own ++ [s.broker.conns.length]
          down := [] }
    else none
  | .connect =>
    if s.idle && s.link.isSome && !s.tcp.connected then
      let (tcp, queued) := s.tcp.onConnect
      let t := s.ws.onConnect
      some ({ s with tcp, since := s.requests.length }.turn
        { t with frames := t.frames ++ if t.threw then [] else queued })
    else none
  | .upstream n =>
    match s.up n with
    | [] => none
    | bytes :: rest =>
      let header := Broker.decodeHeader bytes
      { s with up := Function.update s.up n rest }.brokerStep cfg
        (.frame n header.type header.msg_id (bytes.drop Broker.headerSize))
  | .data k =>
    if s.idle && s.tcp.connected && !s.tcp.destroyed && 0 < k && k ≤ s.down.length then
      let (tcp, frames) := s.tcp.data ((s.down.take k).map Prod.fst)
      let labels := s.labels ++ (s.down.take k).map Prod.snd
      some { s with
        tcp
        down := s.down.drop k
        labels := labels.drop (labels.length - tcp.pending.length)
        frames := labelled frames labels }
    else none
  | .handle =>
    match s.frames with
    | [] => none
    | (f, dispatch) :: frames => some ({ s with frames }.onFrame cfg f dispatch)
  | .close =>
    if s.idle && s.link.isSome then
      some { s with tcp := s.tcp.onDisconnect, link := none, down := [] }
    else none
  | .wsConnect => if s.idle then some { s with ws := s.ws.connection } else none
  | .wsMessage w m =>
    if s.idle && w < s.ws.sockets.length then
      some ({ s with
        requests := s.requests ++ s.requested w m
        acks := s.acks ++ acknowledged m }.turn (s.ws.handleMessage w m))
    else none
  | .wsClosing w => if s.idle && s.ws.isOpen w then some { s with ws := s.ws.closing w } else none
  | .wsClose w =>
    if s.idle && w < s.ws.sockets.length then some { s with ws := s.ws.close w } else none
  | .stats body => if s.idle then some { s with ws := (s.ws.stats cfg.ringSize body).1 } else none
  | .heartbeat =>
    if s.idle && s.tcp.connected then Gateway.encodeHeartbeat.map s.send else none

/-- The state in which the gateway has just started, beside a broker. -/
def beside (broker : Broker.State) : State where
  broker
  tcp := TcpView.create
  ws := WsServer.create
  link := none
  own := []
  up := fun _ => []
  down := []
  labels := []
  frames := []
  crashed := false
  requests := []
  since := 0
  accepted := []
  acks := []
  handled := []

/-- The state after the broker and the gateway have started, before they are connected. -/
def start (cfg : Config) (file : Bytes) (order : List Broker.Message) : Option State :=
  (Broker.State.start cfg.broker file order).map beside

/-- A start without a log file. -/
theorem start_nil (cfg : Config) : start cfg [] [] = some (beside (.init cfg.broker)) := by
  rw [start, Broker.State.start_nil, Option.map_some]

end State

end EventQueue.Bridge
