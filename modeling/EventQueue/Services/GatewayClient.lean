import EventQueue.Gateway.ClientInput
import EventQueue.Lib.JsonText
import EventQueue.Lib.Reconnector

/-!
# The client of the services

`GatewayClient` of `services/order/gatewayClient.js` and `services/payment/gatewayClient.js`, which
are one file. A message is the object that a method builds; `#sendRaw` writes its text to the
socket, and while the socket is not open the message waits in `#pendingQueue`. When the socket
opens, the listeners of `connect` send first, and then the queue is flushed.

`sent_in_order` is what this amounts to over any run: apart from what those listeners send, what has
been written to all sockets, one after the other, and what waits, is what the service sent, in
order. The client follows `Reconnector`, and so never gives up by itself (`keeps_trying`).
-/

namespace EventQueue.Services

open JsString (ofString ofUtf8 toUtf8)
open Transition (Run exec run_of_exec)

/-! ## Messages -/

/-- What a service calls. -/
inductive Call
  | subscribe (topic group : JsString)
  | publish (topic : JsString) (body : Json)
  | ack (msgId : JsString)
  | nack (msgId : JsString)

/-- The object that the method builds, with the identifier as a string. -/
def Call.message : Call → Json
  | .subscribe topic group => .object [(ofString "type", .string (ofString "subscribe")),
      (ofString "topic", .string topic), (ofString "group", .string group)]
  | .publish topic body => .object [(ofString "type", .string (ofString "publish")),
      (ofString "topic", .string topic), (ofString "body", body)]
  | .ack msgId => .object [(ofString "type", .string (ofString "ack")),
      (ofString "msgId", .string msgId)]
  | .nack msgId => .object [(ofString "type", .string (ofString "nack")),
      (ofString "msgId", .string msgId)]

/-- The bytes that `#sendRaw` sends for a message. -/
def rawText (msg : Json) : Bytes := toUtf8 msg.stringify

/-- What a listener of the client gets. -/
inductive Notice
  | message (msg : Json)
  | event (msg : Json)
  | status (status : Option Json)

/-- The handler of `message`: what is emitted, or an exception. A text that is no JSON is ignored,
but the type of `null` cannot be read. -/
def onMessage (raw : Bytes) : Option (List Notice) :=
  match Json.parse (ofUtf8 raw) with
  | none => some []
  | some msg =>
    if msg.isNull then none
    else
      let type := msg.property (ofString "type")
      some (.message msg ::
        ((if Gateway.ClientMessage.isString type (ofString "event") then [.event msg] else []) ++
          if Gateway.ClientMessage.isString type (ofString "status") then
            [.status (msg.property (ofString "status"))]
          else []))

/-! ## The connection -/

/-- The state of a WebSocket as `ws` keeps it. -/
inductive ReadyState
  | CONNECTING | OPEN | CLOSING | CLOSED
deriving DecidableEq, Repr

/-- The delay before the first reconnect. -/
def RECONNECT_MIN_MS : ℕ := 1000

/-- The longest delay. -/
def RECONNECT_MAX_MS : ℕ := 30000

/-- A socket. -/
structure Socket where
  /-- Its state. -/
  readyState : ReadyState
  /-- The messages that were written to it. -/
  written : List Json

/-- The fields of `GatewayClient`, with the sockets that are gone and the timers. -/
structure GatewayClient where
  /-- The current socket. -/
  ws : Option Socket
  /-- The delay before the next reconnect. -/
  delay : ℕ
  /-- `stop` was called. -/
  stopping : Bool
  /-- The messages that wait for a connection. -/
  pendingQueue : List Json
  /-- A call of `connect` is due: the service's own, or the timer's. -/
  due : Bool
  /-- What was written to the sockets before. -/
  before : List Json

/-- What can happen to a client. -/
inductive ClientEvent
  /-- `connect` is called. -/
  | connect
  /-- The socket opens, and the listeners of `connect` send some messages. -/
  | opened (listeners : List Json)
  /-- A message is sent by other means. -/
  | send (msg : Json)
  /-- The closing handshake starts. -/
  | closing
  /-- The socket has closed. -/
  | closed
  /-- `stop` is called. -/
  | stop

namespace GatewayClient

/-- A new client, whose service is about to call `connect`. -/
def create : GatewayClient := ⟨none, RECONNECT_MIN_MS, false, [], true, []⟩

/-- `#sendRaw`. -/
def sendRaw (c : GatewayClient) (msg : Json) : GatewayClient :=
  { c with ws := c.ws.map fun s => { s with written := s.written ++ [msg] } }

/-- The socket is there and open. -/
def isOpen (c : GatewayClient) : Bool := (c.ws.map Socket.readyState) = some .OPEN

/-- `#send`. -/
def send (c : GatewayClient) (msg : Json) : GatewayClient :=
  if c.isOpen then c.sendRaw msg else { c with pendingQueue := c.pendingQueue ++ [msg] }

/-- The handler of `open`. -/
def onOpen (c : GatewayClient) (listeners : List Json) : GatewayClient :=
  let c := { c with
    ws := c.ws.map fun s => { s with readyState := .OPEN }
    delay := RECONNECT_MIN_MS }
  let c := listeners.foldl send c
  let c := c.pendingQueue.foldl sendRaw c
  { c with pendingQueue := [] }

/-- The handler of `close`. -/
def onClose (c : GatewayClient) : GatewayClient :=
  let c := { c with ws := c.ws.map fun s => { s with readyState := .CLOSED } }
  if c.stopping then c else { c with due := true, delay := min (c.delay * 2) RECONNECT_MAX_MS }

/-- `stop`: a socket that is there starts to close. -/
def stop (c : GatewayClient) : GatewayClient :=
  { c with
    stopping := true
    ws := c.ws.map fun s =>
      { s with readyState := if s.readyState = .CLOSED then .CLOSED else .CLOSING } }

/-- The state of the current socket. -/
def readyState (c : GatewayClient) : Option ReadyState := c.ws.map Socket.readyState

/-- The client after an event; `none` when the event cannot happen. -/
def step (c : GatewayClient) : ClientEvent → Option GatewayClient
  | .connect =>
    if c.due then
      if c.stopping then some { c with due := false }
      else some { c with
        ws := some ⟨.CONNECTING, []⟩
        due := false
        before := c.before ++ (c.ws.elim [] Socket.written) }
    else none
  | .opened listeners => if c.readyState = some .CONNECTING then some (c.onOpen listeners) else none
  | .send msg => some (c.send msg)
  | .closing =>
    if c.isOpen then
      some { c with ws := c.ws.map fun s => { s with readyState := .CLOSING } }
    else none
  | .closed =>
    if c.readyState.any (· ≠ .CLOSED) then some c.onClose else none
  | .stop => some c.stop

/-! ## What is sent -/

variable {c d : GatewayClient} {s : Socket} {e : ClientEvent} {es : List ClientEvent}

/-- What was written to all sockets, one after the other. -/
def written (c : GatewayClient) : List Json := c.before ++ c.ws.elim [] Socket.written

/-- Several messages that are written to the socket. -/
theorem foldl_sendRaw (msgs : List Json) (hws : c.ws = some s) :
    msgs.foldl sendRaw c = { c with ws := some { s with written := s.written ++ msgs } } := by
  induction msgs generalizing c s with
  | nil =>
    rw [List.append_nil]
    exact congrArg (fun ws => { c with ws }) hws
  | cons msg msgs ih =>
    have hone : c.sendRaw msg = { c with ws := some { s with written := s.written ++ [msg] } } := by
      rw [sendRaw, hws, Option.map_some]
    rw [List.foldl_cons, hone, ih rfl, List.append_assoc]
    rfl

/-- Several messages that are sent while the socket is open. -/
theorem foldl_send (msgs : List Json) (hws : c.ws = some s) (hopen : s.readyState = .OPEN) :
    msgs.foldl send c = { c with ws := some { s with written := s.written ++ msgs } } := by
  induction msgs generalizing c s with
  | nil =>
    rw [List.append_nil]
    exact congrArg (fun ws => { c with ws }) hws
  | cons msg msgs ih =>
    have hisOpen : c.isOpen = true := by simp [isOpen, hws, hopen]
    have hone : c.send msg = { c with ws := some { s with written := s.written ++ [msg] } } := by
      rw [send, if_pos hisOpen, sendRaw, hws, Option.map_some]
    rw [List.foldl_cons, hone, ih (s := { s with written := s.written ++ [msg] }) rfl hopen,
      List.append_assoc]
    rfl

/-- The handler of `open`: the listeners' messages are written, and then those that waited. -/
theorem onOpen_eq (hws : c.ws = some s) (listeners : List Json) :
    c.onOpen listeners = { c with
      ws := some ⟨.OPEN, s.written ++ listeners ++ c.pendingQueue⟩
      delay := RECONNECT_MIN_MS
      pendingQueue := [] } := by
  unfold onOpen
  rw [hws, Option.map_some]
  dsimp only
  rw [foldl_send listeners rfl rfl, foldl_sendRaw _ rfl]

end GatewayClient

/-- The message that a service sends. -/
def ClientEvent.own : ClientEvent → Option Json
  | .send msg => some msg
  | _ => none

/-- The messages that the listeners of `connect` send. -/
def ClientEvent.greeting : ClientEvent → List Json
  | .opened listeners => listeners
  | _ => []

/-- A message that was written, and who sent it. -/
inductive Entry
  /-- The service. -/
  | own (msg : Json)
  /-- A listener of `connect`. -/
  | greeting (msg : Json)

namespace Entry

/-- The message. -/
def msg : Entry → Json
  | own msg => msg
  | greeting msg => msg

/-- The message of the service. -/
def ownMsg : Entry → Option Json
  | own msg => some msg
  | greeting _ => none

/-- The message of a listener. -/
def greetingMsg : Entry → Option Json
  | own _ => none
  | greeting msg => some msg

end Entry

namespace GatewayClient

variable {c d : GatewayClient} {s : Socket} {e : ClientEvent} {es : List ClientEvent}

/-- The messages that were written, with who sent them. -/
structure Logged (c : GatewayClient) (log : List Entry) (own greetings : List Json) : Prop where
  /-- They are what was written to the sockets. -/
  written : c.written = log.map Entry.msg
  /-- The service's own messages, and those that wait. -/
  own : log.filterMap Entry.ownMsg ++ c.pendingQueue = own
  /-- The listeners' messages. -/
  greetings : log.filterMap Entry.greetingMsg = greetings
  /-- None waits while the socket is open. -/
  settled : c.isOpen = true → c.pendingQueue = []

theorem logged_create : Logged create [] [] [] := ⟨rfl, rfl, rfl, fun _ => rfl⟩

/-- A client that has written nothing more and has the same messages waiting. -/
theorem Logged.of_eq {log : List Entry} {own greetings : List Json} (h : Logged c log own greetings)
    (hwritten : d.written = c.written) (hpending : d.pendingQueue = c.pendingQueue)
    (hopen : d.isOpen = true → c.isOpen = true) : Logged d log (own ++ []) (greetings ++ []) := by
  rw [List.append_nil, List.append_nil]
  exact ⟨hwritten.trans h.written, by rw [hpending, h.own], h.greetings,
    fun hd => hpending.trans (h.settled (hopen hd))⟩

/-- A change of the socket's state writes nothing. -/
theorem written_setState (f : ReadyState → ReadyState) :
    written { c with ws := c.ws.map fun s => { s with readyState := f s.readyState } } =
      c.written := by
  unfold written
  cases c.ws <;> rfl

/-- A message is sent. -/
theorem Logged.send {log : List Entry} {own greetings : List Json} (h : Logged c log own greetings)
    (msg : Json) : ∃ log', Logged (c.send msg) log' (own ++ [msg]) greetings := by
  by_cases hopen : c.isOpen = true
  · -- The socket is open, so that nothing waits.
    obtain ⟨s, hws, hs⟩ := Option.map_eq_some_iff.mp (of_decide_eq_true hopen)
    have hsettled := h.settled hopen
    have hsend : c.send msg = { c with ws := some { s with written := s.written ++ [msg] } } :=
      foldl_send [msg] hws hs
    have hwritten := h.written
    have hown := h.own
    rw [hsettled, List.append_nil] at hown
    rw [hsend]
    refine ⟨log ++ [.own msg], ?_, ?_, ?_, fun _ => hsettled⟩
    · simp only [GatewayClient.written, hws, Option.elim_some] at hwritten ⊢
      simp [← hwritten, Entry.msg]
    · simp [hsettled, hown, Entry.ownMsg]
    · simp [h.greetings, Entry.greetingMsg]
  · have hsend : c.send msg = { c with pendingQueue := c.pendingQueue ++ [msg] } := if_neg hopen
    rw [hsend]
    refine ⟨log, h.written, ?_, h.greetings, fun hd => absurd hd hopen⟩
    rw [← h.own, List.append_assoc]

/-- Every event logs what it writes. -/
theorem Logged.step {log : List Entry} {own greetings : List Json}
    (h : Logged c log own greetings) (hstep : c.step e = some d) :
    ∃ log', Logged d log' (own ++ e.own.toList) (greetings ++ e.greeting) := by
  cases e with
  | connect =>
    simp only [GatewayClient.step] at hstep
    split_ifs at hstep with hdue hstop
    · obtain rfl := Option.some.inj hstep
      exact ⟨log, h.of_eq rfl rfl id⟩
    · obtain rfl := Option.some.inj hstep
      exact ⟨log, h.of_eq (List.append_nil _) rfl fun hopen => by simp [isOpen] at hopen⟩
  | opened listeners =>
    simp only [GatewayClient.step] at hstep
    split_ifs at hstep with hconnecting
    obtain rfl := Option.some.inj hstep
    obtain ⟨s, hws, -⟩ := Option.map_eq_some_iff.mp hconnecting
    rw [onOpen_eq hws]
    -- The listeners' messages first, and then those that waited.
    refine ⟨log ++ listeners.map .greeting ++ c.pendingQueue.map .own, ?_, ?_, ?_, fun _ => rfl⟩
    · have hwritten := h.written
      simp only [GatewayClient.written, hws, Option.elim_some] at hwritten ⊢
      simp [← hwritten, Function.comp_def, Entry.msg]
    · simpa [ClientEvent.own, Function.comp_def, Entry.ownMsg] using h.own
    · simpa [ClientEvent.greeting, Function.comp_def, Entry.greetingMsg] using h.greetings
  | send msg =>
    obtain rfl := Option.some.inj hstep
    obtain ⟨log', hlog⟩ := h.send msg
    exact ⟨log', by simpa [ClientEvent.own, ClientEvent.greeting] using hlog⟩
  | closing =>
    simp only [GatewayClient.step] at hstep
    split_ifs at hstep with hopen
    obtain rfl := Option.some.inj hstep
    exact ⟨log, h.of_eq (written_setState fun _ => .CLOSING) rfl fun _ => hopen⟩
  | closed =>
    simp only [GatewayClient.step] at hstep
    split_ifs at hstep
    obtain rfl := Option.some.inj hstep
    have hwritten := written_setState (c := c) fun _ => .CLOSED
    have hclosed : ∀ c : GatewayClient,
        isOpen { c with ws := c.ws.map fun s => { s with readyState := .CLOSED } } = false := by
      intro c
      unfold isOpen
      cases c.ws <;> simp
    unfold onClose
    dsimp only
    split_ifs
    · exact ⟨log, h.of_eq hwritten rfl fun hopen => by simp [hclosed] at hopen⟩
    · exact ⟨log, h.of_eq hwritten rfl fun hopen => by simp [isOpen] at hopen⟩
  | stop =>
    obtain rfl := Option.some.inj hstep
    refine ⟨log, h.of_eq (written_setState fun r => if r = .CLOSED then .CLOSED else .CLOSING) rfl
      fun hopen => ?_⟩
    unfold isOpen GatewayClient.stop at hopen
    cases hws : c.ws with
    | none => simp [hws] at hopen
    | some s =>
      simp only [hws, Option.map_some] at hopen
      split_ifs at hopen <;> simp at hopen

/-- Every run logs what it writes. -/
theorem exists_logged (hrun : Run step (fun _ _ => True) create es c) :
    ∃ log, Logged c log (es.filterMap ClientEvent.own) (es.flatMap ClientEvent.greeting) := by
  induction hrun with
  | nil => exact ⟨[], logged_create⟩
  | @snoc c d es e _ _ hstep ih =>
    obtain ⟨log, hlog⟩ := ih
    have hown : [e].filterMap ClientEvent.own = e.own.toList := by
      cases e <;> rfl
    rw [List.filterMap_append, List.flatMap_append, hown, List.flatMap_singleton]
    exact hlog.step hstep

/-- In every run of a client, over any number of sockets: what was written to them, one after the
other, and what waits, apart from what the listeners of `connect` sent, is what the service sent,
each message once and in order; what the listeners sent was written in order; and nothing waits
while the socket is open. -/
theorem sent_in_order (hrun : Run step (fun _ _ => True) create es c) :
    ∃ log : List Entry, c.written = log.map Entry.msg ∧
      log.filterMap Entry.ownMsg ++ c.pendingQueue = es.filterMap ClientEvent.own ∧
      log.filterMap Entry.greetingMsg = es.flatMap ClientEvent.greeting ∧
      (c.isOpen = true → c.pendingQueue = []) := by
  obtain ⟨log, hlog⟩ := exists_logged hrun
  exact ⟨log, hlog.written, hlog.own, hlog.greetings, hlog.settled⟩

/-- A message waits for the first socket, and one that is sent while this one closes waits for the
next. -/
theorem sent_in_order_reconnect :
    ∃ c, exec step create [.send (.bool true), .connect, .opened [.null], .send (.bool false),
        .closing, .send (.bool true), .closed, .connect, .opened [.null]] = some c ∧
      ∃ log : List Entry, c.written = log.map Entry.msg ∧
        log.filterMap Entry.ownMsg = [.bool true, .bool false, .bool true] := by
  obtain ⟨c, hexec⟩ : ∃ c, exec step create [.send (.bool true), .connect, .opened [.null],
      .send (.bool false), .closing, .send (.bool true), .closed, .connect, .opened [.null]] =
        some c := ⟨_, rfl⟩
  obtain ⟨log, hwritten, hown, -, hsettled⟩ := sent_in_order (run_of_exec hexec)
  have hopen : c.isOpen = true := by
    obtain rfl := Option.some.inj hexec
    rfl
  rw [hsettled hopen, List.append_nil] at hown
  exact ⟨c, hexec, log, hwritten, hown⟩

/-! ## The socket's state -/

/-- Sending leaves the state alone. -/
theorem readyState_send (c : GatewayClient) (msg : Json) :
    (c.send msg).readyState = c.readyState := by
  unfold send
  split_ifs
  · unfold sendRaw readyState
    cases c.ws <;> rfl
  · rfl

/-- The socket has opened. -/
theorem readyState_opened {listeners : List Json} (h : c.step (.opened listeners) = some d) :
    c.readyState = some .CONNECTING ∧ d.readyState = some .OPEN ∧ d.due = c.due := by
  simp only [GatewayClient.step] at h
  split_ifs at h with hconnecting
  obtain rfl := Option.some.inj h
  obtain ⟨s, hws, -⟩ := Option.map_eq_some_iff.mp hconnecting
  rw [onOpen_eq hws]
  exact ⟨hconnecting, rfl, rfl⟩

/-- The socket has closed. -/
theorem readyState_closed (h : c.step .closed = some d) : d.readyState = some .CLOSED := by
  simp only [GatewayClient.step] at h
  split_ifs at h with hthere
  obtain rfl := Option.some.inj h
  obtain ⟨s, hs, -⟩ := (Option.any_eq_true _ _).mp hthere
  obtain ⟨ws, hws, -⟩ := Option.map_eq_some_iff.mp hs
  unfold onClose readyState
  dsimp only
  split_ifs <;> simp [hws]

/-- The closing handshake has started. -/
theorem readyState_closing (h : c.step .closing = some d) :
    c.readyState = some .OPEN ∧ d.readyState = some .CLOSING ∧ d.due = c.due := by
  simp only [GatewayClient.step] at h
  split_ifs at h with hopen
  obtain rfl := Option.some.inj h
  have hopen : c.readyState = some .OPEN := of_decide_eq_true hopen
  obtain ⟨ws, hws, -⟩ := Option.map_eq_some_iff.mp hopen
  refine ⟨hopen, ?_, rfl⟩
  simp [readyState, hws]

/-- A call of `connect` is due only when there is no socket, or one that has closed. -/
theorem readyState_of_due (hrun : Run step (fun _ _ => True) create es c) :
    c.due = true → c.readyState = none ∨ c.readyState = some .CLOSED := by
  induction hrun with
  | nil => exact fun _ => .inl rfl
  | @snoc c d es e _ _ hstep ih =>
    intro hdue
    cases e with
    | connect =>
      simp only [GatewayClient.step] at hstep
      split_ifs at hstep <;> obtain rfl := Option.some.inj hstep <;> cases hdue
    | opened listeners =>
      obtain ⟨hconnecting, -, hsame⟩ := readyState_opened hstep
      rw [hsame] at hdue
      rcases ih hdue with h | h <;> rw [hconnecting] at h <;> cases h
    | send msg =>
      obtain rfl := Option.some.inj hstep
      have hsame : (c.send msg).due = c.due := by
        unfold send sendRaw
        split_ifs <;> rfl
      rw [readyState_send]
      exact ih (hsame ▸ hdue)
    | closing =>
      obtain ⟨hopen, -, hsame⟩ := readyState_closing hstep
      rw [hsame] at hdue
      rcases ih hdue with h | h <;> rw [hopen] at h <;> cases h
    | closed => exact .inr (readyState_closed hstep)
    | stop =>
      obtain rfl := Option.some.inj hstep
      rcases ih hdue with h | h
      · left
        rw [readyState, Option.map_eq_none_iff] at h ⊢
        simp [stop, h]
      · right
        obtain ⟨ws, hws, hclosed⟩ := Option.map_eq_some_iff.mp h
        simp [readyState, stop, hws, hclosed]

/-! ## A client that is called -/

/-- The client of a service whose listener of `connect` sends `greeting`, which has been called for
some calls, and whose sockets have opened so many times. -/
def Called (greeting : List Json) (c : GatewayClient) (calls : List Call) (openings : ℕ) : Prop :=
  ∃ es : List ClientEvent, Run step (fun _ _ => True) create es c ∧
    es.filterMap ClientEvent.own = calls.map Call.message ∧
    es.flatMap ClientEvent.greeting = (List.replicate openings greeting).flatten

namespace Called

variable {greeting : List Json} {calls : List Call} {openings : ℕ}

theorem create : Called greeting create [] 0 := ⟨[], .nil _, rfl, rfl⟩

/-- One more call. -/
theorem send (h : Called greeting c calls openings) (call : Call) :
    Called greeting (c.send call.message) (calls ++ [call]) openings := by
  obtain ⟨es, hrun, hown, hgreeting⟩ := h
  refine ⟨es ++ [.send call.message], .snoc hrun trivial rfl, ?_, ?_⟩
  · simp [hown, ClientEvent.own]
  · simp [hgreeting, ClientEvent.greeting]

/-- The connection changes, and nothing is sent. -/
theorem step (h : Called greeting c calls openings) (hstep : c.step e = some d)
    (hown : e.own = none) (hgreeting : e.greeting = []) : Called greeting d calls openings := by
  obtain ⟨es, hrun, hown', hgreeting'⟩ := h
  refine ⟨es ++ [e], .snoc hrun trivial hstep, ?_, ?_⟩
  · simp [hown', hown]
  · simp [hgreeting', hgreeting]

/-- The socket opens, and the listener sends what it does. -/
theorem opened (h : Called greeting c calls openings)
    (hstep : c.step (.opened greeting) = some d) : Called greeting d calls (openings + 1) := by
  obtain ⟨es, hrun, hown, hgreeting⟩ := h
  refine ⟨es ++ [.opened greeting], .snoc hrun trivial hstep, ?_, ?_⟩
  · simp [hown, ClientEvent.own]
  · simp [hgreeting, ClientEvent.greeting, List.replicate_succ']

/-- What the sockets got of it. -/
theorem exists_log (h : Called greeting c calls openings) :
    ∃ log : List Entry, c.written = log.map Entry.msg ∧
      log.filterMap Entry.ownMsg ++ c.pendingQueue = calls.map Call.message ∧
      log.filterMap Entry.greetingMsg = (List.replicate openings greeting).flatten := by
  obtain ⟨es, hrun, hown, hgreeting⟩ := h
  obtain ⟨log, hlog⟩ := exists_logged hrun
  exact ⟨log, hlog.written, hlog.own.trans hown, hlog.greetings.trans hgreeting⟩

end Called

end GatewayClient

/-! ## Reconnecting -/

/-- What an event is for the client's design. -/
def ClientEvent.abstract : ClientEvent → Option Reconnector.Event
  | .connect => some .attempt
  | .opened _ => some .opened
  | .closed => some .closed
  | .stop => some .stop
  | .send _ | .closing => none

namespace GatewayClient

variable {c d : GatewayClient} {r : Reconnector.State} {e : ClientEvent} {es : List ClientEvent}

/-- The timer and the socket of a client in a phase. -/
inductive Standing (c : GatewayClient) : Reconnector.Phase → Prop
  /-- A call of `connect` is due, and the socket has closed if there is one. -/
  | due (wait : ℕ) (hdue : c.due = true)
      (hws : c.readyState = none ∨ c.readyState = some .CLOSED) : Standing c (.due wait)
  /-- The socket is new, or `stop` was called on it. -/
  | trying (hdue : c.due = false)
      (hws : c.readyState = some (if c.stopping then .CLOSING else .CONNECTING)) :
      Standing c .trying
  /-- The socket has opened. -/
  | up (hdue : c.due = false) (hws : c.readyState = some .OPEN ∨ c.readyState = some .CLOSING) :
      Standing c .up
  /-- Nothing is due, and the socket has closed if there is one. -/
  | down (hdue : c.due = false) (hws : c.readyState = none ∨ c.readyState = some .CLOSED) :
      Standing c .down

/-- A client follows its design. -/
structure Follows (c : GatewayClient) (r : Reconnector.State) : Prop where
  /-- The timer and the socket. -/
  standing : c.Standing r.phase
  /-- `#stopping`. -/
  stopping : c.stopping = r.stopping
  /-- `#delay`. -/
  delay : c.delay = Reconnector.backoff RECONNECT_MIN_MS RECONNECT_MAX_MS r.failures

theorem follows_create : create.Follows Reconnector.init where
  standing := .due 0 rfl (.inl rfl)
  stopping := rfl
  delay := rfl

/-- What is sent does not matter. -/
theorem Follows.send (h : c.Follows r) (msg : Json) : (c.send msg).Follows r := by
  have hsame : (c.send msg).due = c.due ∧ (c.send msg).stopping = c.stopping ∧
      (c.send msg).delay = c.delay := by
    unfold GatewayClient.send sendRaw
    split_ifs <;> exact ⟨rfl, rfl, rfl⟩
  obtain ⟨hdue, hstopping, hdelay⟩ := hsame
  refine ⟨?_, hstopping.trans h.stopping, hdelay.trans h.delay⟩
  have hws := readyState_send c msg
  obtain ⟨phase, failures, stopping⟩ := r
  cases h.standing with
  | due wait hdue' hws' => exact .due wait (hdue.trans hdue') (by rwa [hws])
  | trying hdue' hws' => exact .trying (hdue.trans hdue') (by rwa [hws, hstopping])
  | up hdue' hws' => exact .up (hdue.trans hdue') (by rwa [hws])
  | down hdue' hws' => exact .down (hdue.trans hdue') (by rwa [hws])

/-- A call of `connect` that is made was due. -/
theorem Follows.connect (h : c.Follows r) (hstep : c.step .connect = some d) :
    ∃ r', Reconnector.step RECONNECT_MIN_MS RECONNECT_MAX_MS r .attempt = some r' ∧
      d.Follows r' := by
  obtain ⟨phase, failures, stopping⟩ := r
  obtain ⟨hstanding, hstopping, hdelay⟩ := h
  dsimp only at hstanding hstopping hdelay
  simp only [GatewayClient.step] at hstep
  cases hstanding with
  | due wait hdue hws =>
    rw [if_pos hdue] at hstep
    split_ifs at hstep with hstop <;> obtain rfl := Option.some.inj hstep
    · have hstop' : stopping = true := hstopping.symm.trans hstop
      refine ⟨⟨.down, failures, stopping⟩, Reconnector.step_attempt_of_stopping rfl hstop', ?_⟩
      exact ⟨.down rfl hws, hstopping, hdelay⟩
    · have hstop' : stopping = false := hstopping.symm.trans (Bool.not_eq_true _ ▸ hstop)
      refine ⟨⟨.trying, failures, stopping⟩, Reconnector.step_attempt_of_running rfl hstop', ?_⟩
      exact ⟨.trying rfl (by simp [readyState, hstop]), hstopping, hdelay⟩
  | trying hdue | up hdue | down hdue => simp [hdue] at hstep

/-- A socket that opens is the new one, and the delay starts again. -/
theorem Follows.opened {listeners : List Json} (h : c.Follows r)
    (hstep : c.step (.opened listeners) = some d) :
    ∃ r', Reconnector.step RECONNECT_MIN_MS RECONNECT_MAX_MS r .opened = some r' ∧
      d.Follows r' := by
  obtain ⟨phase, failures, stopping⟩ := r
  obtain ⟨hstanding, hstopping, hdelay⟩ := h
  dsimp only at hstanding hstopping hdelay
  obtain ⟨hconnecting, hopen, hdue'⟩ := readyState_opened hstep
  have hsame : d.stopping = c.stopping ∧ d.delay = RECONNECT_MIN_MS := by
    simp only [GatewayClient.step, if_pos hconnecting] at hstep
    obtain rfl := Option.some.inj hstep
    obtain ⟨s, hws, -⟩ := Option.map_eq_some_iff.mp hconnecting
    rw [onOpen_eq hws]
    exact ⟨rfl, rfl⟩
  cases hstanding with
  | trying hdue hws =>
    -- `stop` was not called on it.
    have hstop : c.stopping = false := by
      by_contra hstop
      rw [hconnecting, if_pos (Bool.not_eq_false _ ▸ hstop)] at hws
      cases hws
    have hstop' : stopping = false := hstopping.symm.trans hstop
    refine ⟨⟨.up, 0, stopping⟩, Reconnector.step_opened rfl hstop', ?_⟩
    refine ⟨.up (hdue'.trans hdue) (.inl hopen), hsame.1.trans hstopping, hsame.2.trans ?_⟩
    exact (Reconnector.backoff_zero (show RECONNECT_MIN_MS ≤ RECONNECT_MAX_MS by decide)).symm
  | due wait hdue hws | up hdue hws | down hdue hws =>
    rcases hws with hws | hws <;> rw [hconnecting] at hws <;> cases hws

/-- A socket that closes makes the next call due, unless `stop` was called. -/
theorem Follows.closed (h : c.Follows r) (hstep : c.step .closed = some d) :
    ∃ r', Reconnector.step RECONNECT_MIN_MS RECONNECT_MAX_MS r .closed = some r' ∧
      d.Follows r' := by
  obtain ⟨phase, failures, stopping⟩ := r
  obtain ⟨hstanding, hstopping, hdelay⟩ := h
  dsimp only at hstanding hstopping hdelay
  have hclosed := readyState_closed hstep
  simp only [GatewayClient.step] at hstep
  split_ifs at hstep with hthere
  obtain rfl := Option.some.inj hstep
  have hphase : c.due = false ∧ (phase = .trying ∨ phase = .up) := by
    cases hstanding with
    | trying hdue => exact ⟨hdue, .inl rfl⟩
    | up hdue => exact ⟨hdue, .inr rfl⟩
    | due wait hdue hws | down hdue hws =>
      rcases hws with hws | hws <;> simp [hws] at hthere
  obtain ⟨hdue, hphase⟩ := hphase
  by_cases hstop : c.stopping = true
  · have hstop' : stopping = true := hstopping.symm.trans hstop
    refine ⟨⟨.down, failures, stopping⟩, Reconnector.step_closed_of_stopping hphase hstop', ?_⟩
    have hclient : c.onClose =
        { c with ws := c.ws.map fun s => { s with readyState := .CLOSED } } := by
      unfold onClose
      exact if_pos hstop
    rw [hclient] at hclosed ⊢
    exact ⟨.down hdue (.inr hclosed), hstopping, hdelay⟩
  · have hstop' : stopping = false := hstopping.symm.trans (Bool.not_eq_true _ ▸ hstop)
    refine ⟨⟨.due _, failures + 1, stopping⟩,
      Reconnector.step_closed_of_running hphase hstop', ?_⟩
    have hclient : c.onClose = { c with
        ws := c.ws.map fun s => { s with readyState := .CLOSED }
        due := true
        delay := min (c.delay * 2) RECONNECT_MAX_MS } := by
      unfold onClose
      exact if_neg hstop
    rw [hclient] at hclosed ⊢
    refine ⟨.due _ rfl (.inr hclosed), hstopping, ?_⟩
    show min (c.delay * 2) RECONNECT_MAX_MS = _
    rw [hdelay, Reconnector.backoff_succ]

/-- `stop` starts to close a socket that is there. -/
theorem Follows.stop (h : c.Follows r) : c.stop.Follows { r with stopping := true } := by
  obtain ⟨phase, failures, stopping⟩ := r
  obtain ⟨hstanding, hstopping, hdelay⟩ := h
  refine ⟨?_, rfl, hdelay⟩
  have hstate : c.stop.readyState =
      c.readyState.map fun s => if s = .CLOSED then .CLOSED else .CLOSING := by
    simp [GatewayClient.stop, readyState, Function.comp_def]
  cases hstanding with
  | due wait hdue hws =>
    refine .due wait hdue ?_
    rcases hws with hws | hws <;> simp [hstate, hws]
  | trying hdue hws =>
    refine .trying hdue ?_
    rw [hstate, hws]
    cases c.stopping <;> rfl
  | up hdue hws =>
    refine .up hdue (.inr ?_)
    rcases hws with hws | hws <;> simp [hstate, hws]
  | down hdue hws =>
    refine .down hdue ?_
    rcases hws with hws | hws <;> simp [hstate, hws]

/-- Every event is one of the design, or none. -/
theorem Follows.step (h : c.Follows r) (hstep : c.step e = some d) :
    ∃ r', exec (Reconnector.step RECONNECT_MIN_MS RECONNECT_MAX_MS) r e.abstract.toList = some r' ∧
      d.Follows r' := by
  cases e with
  | connect =>
    obtain ⟨r', hr', hfollows⟩ := h.connect hstep
    exact ⟨r', Reconnector.exec_singleton hr', hfollows⟩
  | opened listeners =>
    obtain ⟨r', hr', hfollows⟩ := h.opened hstep
    exact ⟨r', Reconnector.exec_singleton hr', hfollows⟩
  | send msg =>
    obtain rfl := Option.some.inj hstep
    exact ⟨r, rfl, h.send msg⟩
  | closing =>
    obtain ⟨hopen, hclosing, hdue⟩ := readyState_closing hstep
    refine ⟨r, rfl, ?_⟩
    simp only [GatewayClient.step] at hstep
    split_ifs at hstep
    obtain rfl := Option.some.inj hstep
    refine ⟨?_, h.stopping, h.delay⟩
    obtain ⟨phase, failures, stopping⟩ := r
    -- The socket has opened, and is not closed yet.
    cases h.standing with
    | up hdue' => exact .up hdue' (.inr hclosing)
    | trying hdue' hws => cases hstop : c.stopping <;> simp [hopen, hstop] at hws
    | due wait hdue' hws | down hdue' hws =>
      rcases hws with hws | hws <;> rw [hopen] at hws <;> cases hws
  | closed =>
    obtain ⟨r', hr', hfollows⟩ := h.closed hstep
    exact ⟨r', Reconnector.exec_singleton hr', hfollows⟩
  | stop =>
    obtain rfl := Option.some.inj hstep
    exact ⟨_, Reconnector.exec_singleton rfl, h.stop⟩

/-- In every run of a service's client: a call of `connect` is due only when there is no socket or
one that has closed, and until `stop` is called one of the two is there, the call or the socket; and
the delay is that of the design, `RECONNECT_MIN_MS` doubled for every failure since the last
connection, up to `RECONNECT_MAX_MS`. -/
theorem keeps_trying (hexec : exec step create es = some c) :
    (c.due = true → c.readyState = none ∨ c.readyState = some .CLOSED) ∧
    (c.stopping = false → c.due = true ∨ ∃ s, c.readyState = some s ∧ s ≠ .CLOSED) ∧
    ∃ r, exec (Reconnector.step RECONNECT_MIN_MS RECONNECT_MAX_MS) Reconnector.init
        (es.filterMap ClientEvent.abstract) = some r ∧
      c.delay = Reconnector.backoff RECONNECT_MIN_MS RECONNECT_MAX_MS r.failures := by
  obtain ⟨r, hr, hfollows⟩ := Transition.exec_simulated (R := Follows) (f := ClientEvent.abstract)
    (fun _ _ _ _ hc h => hc.step h) follows_create hexec
  have hsound := Reconnector.sound_of_exec hr
  refine ⟨readyState_of_due (run_of_exec hexec), fun hstop => ?_, r, hr, hfollows.delay⟩
  obtain ⟨phase, failures, stopping⟩ := r
  cases hfollows.standing with
  | due wait hdue => exact .inl hdue
  | trying hdue hws => exact .inr ⟨_, hws, by simp [hstop]⟩
  | up hdue hws =>
    rcases hws with hws | hws
    · exact .inr ⟨_, hws, by decide⟩
    · exact .inr ⟨_, hws, by decide⟩
  | down =>
    have hstopped : c.stopping = true := hfollows.stopping.trans (hsound.down rfl)
    rw [hstop] at hstopped
    cases hstopped

/-- Two attempts fail. -/
theorem keeps_trying_twoFailures :
    ∃ c, exec step create [.connect, .closed, .connect, .closed] = some c ∧ c.delay = 4000 ∧
      (c.readyState = none ∨ c.readyState = some .CLOSED) := by
  obtain ⟨c, hexec⟩ : ∃ c, exec step create [.connect, .closed, .connect, .closed] = some c :=
    ⟨_, rfl⟩
  have hend : c.delay = 4000 ∧ c.due = true := by
    obtain rfl := Option.some.inj hexec
    exact ⟨rfl, rfl⟩
  exact ⟨c, hexec, hend.1, (keeps_trying hexec).1 hend.2⟩

end GatewayClient

end EventQueue.Services
