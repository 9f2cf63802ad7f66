import EventQueue.Gateway.TcpClient
import EventQueue.Lib.Transition

/-!
# What the gateway writes to the broker

The sending half of `TcpClient`: its sockets, its queue, and the callbacks that it gives to
`process.nextTick`. While it is connected, `send` corks the socket, writes the frame, and schedules
an uncork unless one is scheduled. It tells that by the value of `process.nextTick`, which is
`undefined`, so every `send` schedules one of its own and the socket's cork depth is the number of
callbacks to come. `connect` makes a new socket. It is called at the start and by the timer of a
disconnect, and callbacks of `process.nextTick` run before any timer.

`Journal` is what the client is for: the frames of a connection are those of the listeners of
`connect`, then those that were waiting, of which only the first `OUT_QUEUE_MAX` are kept, and then
the later ones. `Keeps` ties the client to it, and `outbound_frames` is the refinement.
-/

namespace EventQueue.Gateway

open Transition (Run exec run_of_exec)

/-- A `net.Socket`, as a stream that is written to. -/
structure Socket where
  /-- How often it is corked. -/
  corked : ℕ
  /-- The frames that were written while it was corked. -/
  buffered : List Bytes
  /-- The frames that it has passed on. -/
  flushed : List Bytes
deriving DecidableEq, Repr

namespace Socket

/-- A new socket. -/
def create : Socket := ⟨0, [], []⟩

/-- `cork`. -/
def cork (s : Socket) : Socket := { s with corked := s.corked + 1 }

/-- `write`. -/
def write (s : Socket) (frame : Bytes) : Socket :=
  if s.corked = 0 then { s with flushed := s.flushed ++ [frame] }
  else { s with buffered := s.buffered ++ [frame] }

/-- `uncork`: the last one passes on what was written. -/
def uncork (s : Socket) : Socket :=
  if s.corked ≤ 1 then ⟨0, [], s.flushed ++ s.buffered⟩ else { s with corked := s.corked - 1 }

/-- The frames that were written to it, in order. -/
def written (s : Socket) : List Bytes := s.flushed ++ s.buffered

end Socket

/-- The truth value of what `process.nextTick` returns: `undefined`. -/
def nextTickResult : Bool := false

/-- A client with its socket and the callbacks that it has scheduled. -/
structure Outbound where
  /-- The client. -/
  client : TcpClient
  /-- The current socket. -/
  socket : Option Socket
  /-- The socket has not emitted `close`. -/
  live : Bool
  /-- The truth value of `#corkTimer`. -/
  corkTimer : Bool
  /-- The callbacks of `process.nextTick` that have not run. -/
  ticks : ℕ
  /-- A call of `connect` is due: that of the entry point, or that of the timer. -/
  due : Bool

/-- What can happen to a client. -/
inductive OutboundEvent
  /-- `connect` is called. -/
  | connect
  /-- The socket emits `connect`, and the listeners send some frames. -/
  | connected (listeners : List Bytes)
  /-- `send` is called. -/
  | send (frame : Bytes)
  /-- A callback of `process.nextTick` runs. -/
  | tick
  /-- The socket emits `close`. -/
  | close
  /-- `stop` is called. -/
  | stop
deriving DecidableEq, Repr

namespace TcpClient

/-- The branch of `send` without a connection. -/
def enqueue (c : TcpClient) (frame : Bytes) : TcpClient :=
  if c.outQueue.length < OUT_QUEUE_MAX then { c with outQueue := c.outQueue ++ [frame] } else c

end TcpClient

namespace Outbound

/-- A new client, as the entry point makes it. -/
def create (readBufSize : ℕ) (memory : ℕ → UInt8) : Outbound :=
  ⟨TcpClient.create readBufSize memory, none, false, false, 0, true⟩

/-- `send`. -/
def send (o : Outbound) (frame : Bytes) : Outbound :=
  match o.client.connected, o.socket with
  | true, some socket =>
    let o := { o with socket := some (socket.cork.write frame) }
    if !o.corkTimer then { o with corkTimer := nextTickResult, ticks := o.ticks + 1 } else o
  | _, _ => { o with client := o.client.enqueue frame }

/-- The callback that `send` schedules. -/
def uncorkLater (o : Outbound) : Outbound :=
  { o with socket := o.socket.map Socket.uncork, corkTimer := false }

/-- `connect`, when the client is not stopping. -/
def connect (o : Outbound) : Outbound := { o with socket := some Socket.create, live := true }

/-- The client knows that it is connected. -/
def opened (o : Outbound) : Outbound :=
  { o with client := { o.client with
    connected := true, destroyed := false, delay := RECONNECT_MIN_MS } }

/-- The queue is sent. -/
def flushQueue (o : Outbound) : Outbound :=
  let o := o.client.outQueue.foldl send o
  { o with client := { o.client with outQueue := [] } }

/-- The handler of `connect`: the listeners send their frames, and then the queue is sent. -/
def onConnect (o : Outbound) (listeners : List Bytes) : Outbound :=
  (listeners.foldl send o.opened).flushQueue

/-- The handler of `close`. -/
def onClose (o : Outbound) : Outbound :=
  { o with client := o.client.onDisconnect, live := false, due := !o.client.stopping }

/-- The client after an event; `none` when the event cannot happen. -/
def step (o : Outbound) : OutboundEvent → Option Outbound
  | .connect =>
    if o.due && !o.client.stopping && o.ticks = 0 then some { o.connect with due := false }
    else none
  | .connected listeners =>
    if o.live && !o.client.connected && !o.client.stopping then some (o.onConnect listeners)
    else none
  | .send frame => some (o.send frame)
  | .tick => if 0 < o.ticks then some { o.uncorkLater with ticks := o.ticks - 1 } else none
  | .close => if o.live then some o.onClose else none
  | .stop => some { o with client := o.client.stop }

end Outbound

/-! ## What the client is for -/

/-- What was handed to a client. -/
structure Journal where
  /-- There is a connection. -/
  up : Bool
  /-- The frames that were sent since there was one. -/
  waiting : List Bytes
  /-- The frames that the listeners of `connect` sent on the current socket. -/
  greeting : List Bytes
  /-- The frames that were waiting when the current socket was connected. -/
  waited : List Bytes
  /-- The frames that were sent on the connection since. -/
  later : List Bytes
deriving DecidableEq, Repr

namespace Journal

/-- Nothing was handed to the client. -/
def empty : Journal := ⟨false, [], [], [], []⟩

/-- What an event adds. -/
def next (j : Journal) : OutboundEvent → Journal
  | .connect => { j with greeting := [], waited := [], later := [] }
  | .connected listeners => ⟨true, [], listeners, j.waiting, []⟩
  | .send frame =>
    if j.up then { j with later := j.later ++ [frame] }
    else { j with waiting := j.waiting ++ [frame] }
  | .close => { j with up := false }
  | .tick | .stop => j

/-- The journal of some events. -/
def along (es : List OutboundEvent) : Journal := es.foldl next empty

/-- What should be written to the current socket. -/
def expected (j : Journal) : List Bytes := j.greeting ++ j.waited.take OUT_QUEUE_MAX ++ j.later

end Journal

/-! ## The client keeps its journal -/

namespace Outbound

variable {o o' : Outbound} {j : Journal} {e : OutboundEvent} {es : List OutboundEvent}
  {socket : Socket}

/-- A frame that is written to a corked socket waits there. -/
theorem write_cork (socket : Socket) (frame : Bytes) :
    socket.cork.write frame =
      ⟨socket.corked + 1, socket.buffered ++ [frame], socket.flushed⟩ := by
  simp [Socket.cork, Socket.write]

/-- `send` on a connection: the frame is written, and one more callback is scheduled. -/
theorem send_of_connected (hconnected : o.client.connected = true)
    (hsocket : o.socket = some socket) (htimer : o.corkTimer = false) (frame : Bytes) :
    o.send frame = { o with
      socket := some ⟨socket.corked + 1, socket.buffered ++ [frame], socket.flushed⟩
      ticks := o.ticks + 1 } := by
  unfold send
  rw [hconnected, hsocket]
  simp [htimer, write_cork, nextTickResult]

/-- Several calls of `send` on a connection. -/
theorem foldl_send_of_connected (frames : List Bytes) (hconnected : o.client.connected = true)
    (hsocket : o.socket = some socket) (htimer : o.corkTimer = false) :
    frames.foldl send o = { o with
      socket := some ⟨socket.corked + frames.length, socket.buffered ++ frames, socket.flushed⟩
      ticks := o.ticks + frames.length } := by
  induction frames generalizing o socket with
  | nil => simp [← hsocket]
  | cons frame frames ih =>
    rw [List.foldl_cons, send_of_connected hconnected hsocket htimer]
    have hrest := ih (o := { o with
      socket := some ⟨socket.corked + 1, socket.buffered ++ [frame], socket.flushed⟩
      ticks := o.ticks + 1 }) hconnected rfl htimer
    rw [hrest]
    simp [Nat.add_comm, Nat.add_left_comm]

/-- `send` without a connection. -/
theorem send_of_not_connected (hconnected : o.client.connected = false) (frame : Bytes) :
    o.send frame = { o with client := o.client.enqueue frame } := by
  unfold send
  rw [hconnected]

/-- `send` does to the client what it does without its socket. -/
theorem client_send (hsocket : o.client.connected = true → o.socket.isSome = true)
    (frame : Bytes) : (o.send frame).client = (o.client.send frame).1 := by
  cases hconnected : o.client.connected with
  | true =>
    obtain ⟨socket, hsome⟩ := Option.isSome_iff_exists.mp (hsocket hconnected)
    unfold send
    rw [TcpClient.send, if_pos hconnected, hconnected, hsome]
    dsimp only
    split_ifs <;> rfl
  | false =>
    rw [send_of_not_connected hconnected, TcpClient.send, hconnected, if_neg Bool.false_ne_true]
    unfold TcpClient.enqueue
    split_ifs <;> simp [hconnected]

/-- The handler of `connect` on a new socket: it writes the frames of the listeners and then those
that were waiting. -/
theorem onConnect_of_fresh (hsocket : o.socket = some Socket.create) (htimer : o.corkTimer = false)
    (listeners : List Bytes) :
    o.onConnect listeners = { o with
      client := o.client.onConnect.1
      socket := some ⟨listeners.length + o.client.onConnect.2.length,
        listeners ++ o.client.onConnect.2, []⟩
      ticks := o.ticks + (listeners.length + o.client.onConnect.2.length) } := by
  have hlisteners := foldl_send_of_connected (o := o.opened) listeners rfl hsocket htimer
  unfold onConnect flushQueue
  rw [hlisteners]
  dsimp only
  rw [foldl_send_of_connected (o := { o.opened with
    socket := some ⟨Socket.create.corked + listeners.length,
      Socket.create.buffered ++ listeners, Socket.create.flushed⟩
    ticks := o.opened.ticks + listeners.length }) _ rfl rfl htimer]
  simp [opened, TcpClient.onConnect, Socket.create, Nat.add_assoc]

/-- What every run keeps. -/
structure Keeps (o : Outbound) (j : Journal) : Prop where
  /-- The client knows whether there is a connection. -/
  up : o.client.connected = j.up
  /-- It has queued the first of the frames that wait. -/
  queue : o.client.outQueue = j.waiting.take OUT_QUEUE_MAX
  /-- None waits while there is a connection, which is one of the current socket. -/
  settled : j.up = true → j.waiting = [] ∧ o.live = true ∧ o.socket.isSome = true
  /-- Nothing was written to a socket that is not connected yet. -/
  fresh : j.up = false → o.live = true → o.socket = some Socket.create ∧ o.ticks = 0
  /-- What was written is what the journal expects. -/
  written : ∀ socket, o.socket = some socket → socket.written = j.expected
  /-- Each uncork that is missing is scheduled. -/
  corked : ∀ socket, o.socket = some socket → socket.corked = o.ticks
  /-- A socket that is not corked has passed on everything. -/
  passed : ∀ socket, o.socket = some socket → socket.corked = 0 → socket.buffered = []
  /-- `#corkTimer` is never set. -/
  timer : o.corkTimer = false

theorem keeps_create (readBufSize : ℕ) (memory : ℕ → UInt8) :
    (create readBufSize memory).Keeps Journal.empty where
  up := rfl
  queue := rfl
  settled h := by cases h
  fresh _ h := by cases h
  written socket h := by cases h
  corked socket h := by cases h
  passed socket h := by cases h
  timer := rfl

/-- A frame that is queued: the first `OUT_QUEUE_MAX` of those that wait stay queued. -/
theorem outQueue_enqueue {waiting : List Bytes} {c : TcpClient}
    (h : c.outQueue = waiting.take OUT_QUEUE_MAX) (frame : Bytes) :
    (c.enqueue frame).outQueue = (waiting ++ [frame]).take OUT_QUEUE_MAX := by
  have hlength : c.outQueue.length = min OUT_QUEUE_MAX waiting.length := by
    rw [h, List.length_take]
  unfold TcpClient.enqueue
  split_ifs with hroom
  · -- All that wait are queued.
    have hle : waiting.length ≤ OUT_QUEUE_MAX := by omega
    dsimp only
    rw [h, List.take_of_length_le hle, List.take_of_length_le (by simp; omega)]
  · rw [h, List.take_append_of_le_length (by omega)]

/-- A frame is sent. -/
theorem Keeps.send (h : o.Keeps j) (frame : Bytes) :
    (o.send frame).Keeps (j.next (.send frame)) := by
  cases hup : j.up with
  | true =>
    have hconnected : o.client.connected = true := h.up.trans hup
    obtain ⟨hnone, hlive, hsome⟩ := h.settled hup
    obtain ⟨socket, hsocket⟩ := Option.isSome_iff_exists.mp hsome
    rw [send_of_connected hconnected hsocket h.timer]
    simp only [Journal.next, hup, if_true]
    refine ⟨h.up.trans hup, h.queue, fun _ => ⟨hnone, hlive, rfl⟩, ?_, ?_, ?_, ?_, h.timer⟩
    · intro hdown
      cases hdown
    · rintro _ ⟨⟩
      have hwritten := h.written socket hsocket
      simp only [Socket.written, Journal.expected] at hwritten ⊢
      rw [← List.append_assoc, hwritten, List.append_assoc]
    · rintro _ ⟨⟩
      show socket.corked + 1 = o.ticks + 1
      rw [h.corked socket hsocket]
    · rintro _ ⟨⟩ hzero
      cases hzero
  | false =>
    have hconnected : o.client.connected = false := h.up.trans hup
    rw [send_of_not_connected hconnected]
    simp only [Journal.next, hup, Bool.false_eq_true, if_false]
    have hclient : (o.client.enqueue frame).connected = o.client.connected := by
      unfold TcpClient.enqueue
      split_ifs <;> rfl
    refine ⟨hclient.trans hconnected, outQueue_enqueue h.queue frame, ?_, fun _ => h.fresh hup,
      h.written, h.corked, h.passed, h.timer⟩
    intro hup'
    cases hup'

/-- The socket is connected. -/
theorem Keeps.connected (h : o.Keeps j) (hlive : o.live = true)
    (hconnected : o.client.connected = false) (listeners : List Bytes) :
    (o.onConnect listeners).Keeps (j.next (.connected listeners)) := by
  have hup : j.up = false := h.up.symm.trans hconnected
  obtain ⟨hsocket, hticks⟩ := h.fresh hup hlive
  rw [onConnect_of_fresh hsocket h.timer, hticks, Nat.zero_add]
  have hqueue : o.client.onConnect.2 = j.waiting.take OUT_QUEUE_MAX := h.queue
  refine ⟨rfl, rfl, fun _ => ⟨rfl, hlive, rfl⟩, ?_, ?_, ?_, ?_, h.timer⟩
  · intro hdown
    cases hdown
  · rintro _ ⟨⟩
    simp [Socket.written, Journal.next, Journal.expected, hqueue]
  · rintro _ ⟨⟩
    rfl
  · rintro _ ⟨⟩ hzero
    exact List.eq_nil_of_length_eq_zero (by rw [List.length_append]; exact hzero)

/-- A callback runs. -/
theorem Keeps.tick (h : o.Keeps j) (hticks : 0 < o.ticks) :
    Keeps { o.uncorkLater with ticks := o.ticks - 1 } j := by
  refine ⟨h.up, h.queue, fun hup => ?_, fun hup hlive => ?_, ?_, ?_, ?_, rfl⟩
  · obtain ⟨hnone, hlive, hsome⟩ := h.settled hup
    exact ⟨hnone, hlive, by simpa [uncorkLater] using hsome⟩
  · have hzero := (h.fresh hup hlive).2
    omega
  all_goals
    intro socket' hsocket'
    obtain ⟨socket, hsocket, rfl⟩ := Option.map_eq_some_iff.mp hsocket'
    have hcorked := h.corked socket hsocket
  · rw [← h.written socket hsocket]
    unfold Socket.uncork
    split_ifs
    · simp [Socket.written]
    · rfl
  · show socket.uncork.corked = o.ticks - 1
    unfold Socket.uncork
    split_ifs
    · dsimp only
      omega
    · rw [← hcorked]
  · intro hzero
    unfold Socket.uncork at hzero ⊢
    split_ifs at hzero ⊢ with hlast
    · rfl
    · dsimp only at hzero
      omega

/-- Every step keeps the journal. -/
theorem Keeps.step (h : o.Keeps j) (hstep : o.step e = some o') : o'.Keeps (j.next e) := by
  cases e with
  | connect =>
    simp only [Outbound.step] at hstep
    split_ifs at hstep with hdue
    obtain rfl := Option.some.inj hstep
    simp only [Bool.and_eq_true, decide_eq_true_eq] at hdue
    refine ⟨h.up, h.queue, fun hup => ⟨(h.settled hup).1, rfl, rfl⟩, fun _ _ => ⟨rfl, hdue.2⟩,
      ?_, ?_, ?_, h.timer⟩
    all_goals rintro _ ⟨⟩
    · rfl
    · exact hdue.2.symm
    · exact fun _ => rfl
  | connected listeners =>
    simp only [Outbound.step] at hstep
    split_ifs at hstep with hconnected
    obtain rfl := Option.some.inj hstep
    simp only [Bool.and_eq_true, Bool.not_eq_true'] at hconnected
    exact h.connected hconnected.1.1 hconnected.1.2 listeners
  | send frame =>
    obtain rfl := Option.some.inj hstep
    exact h.send frame
  | tick =>
    simp only [Outbound.step] at hstep
    split_ifs at hstep with hticks
    obtain rfl := Option.some.inj hstep
    exact h.tick hticks
  | close =>
    simp only [Outbound.step] at hstep
    split_ifs at hstep with hlive
    obtain rfl := Option.some.inj hstep
    have hclient : o.client.onDisconnect.connected = false ∧
        o.client.onDisconnect.outQueue = o.client.outQueue := by
      unfold TcpClient.onDisconnect
      split_ifs <;> exact ⟨rfl, rfl⟩
    refine ⟨hclient.1, hclient.2.trans h.queue, ?_, ?_, h.written, h.corked, h.passed, h.timer⟩
    · intro hup
      cases hup
    · intro _ hlive'
      cases hlive'
  | stop =>
    obtain rfl := Option.some.inj hstep
    exact ⟨h.up, h.queue, h.settled, h.fresh, h.written, h.corked, h.passed, h.timer⟩

/-- So does every run. -/
theorem Run.keeps {readBufSize : ℕ} {memory : ℕ → UInt8}
    (hrun : Run step (fun _ _ => True) (create readBufSize memory) es o) :
    o.Keeps (Journal.along es) := by
  induction hrun with
  | nil => exact keeps_create _ _
  | snoc _ _ hstep ih =>
    rw [Journal.along, List.foldl_concat]
    exact ih.step hstep

/-- In every run, what was written to the current socket is the frames that the listeners of
`connect` sent on it, then the first `OUT_QUEUE_MAX` of those that were waiting for it, each once
and in the order in which they were sent, and then those that were sent on the connection later; and
when no callback is to come, the socket is not corked and has passed on all of them. The queue has
the first `OUT_QUEUE_MAX` of the frames that wait now. -/
theorem outbound_frames (readBufSize : ℕ) (memory : ℕ → UInt8) (es : List OutboundEvent)
    (o : Outbound) (hrun : Run step (fun _ _ => True) (create readBufSize memory) es o) :
    o.client.outQueue = (Journal.along es).waiting.take OUT_QUEUE_MAX ∧
      ∀ socket, o.socket = some socket →
        socket.written = (Journal.along es).greeting ++
          (Journal.along es).waited.take OUT_QUEUE_MAX ++ (Journal.along es).later ∧
        (o.ticks = 0 → socket.corked = 0 ∧ socket.flushed = socket.written) := by
  have h := Run.keeps hrun
  refine ⟨h.queue, fun socket hsocket => ⟨h.written socket hsocket, fun hticks => ?_⟩⟩
  have hcorked : socket.corked = 0 := (h.corked socket hsocket).trans hticks
  refine ⟨hcorked, ?_⟩
  rw [Socket.written, h.passed socket hsocket hcorked, List.append_nil]

/-- Two frames wait for the connection, a listener of `connect` sends one, and one comes later. -/
theorem outbound_frames_queued :
    ∃ o, exec step (create READ_BUF_SIZE fun _ => 0) [.send [1], .connect, .send [2],
        .connected [[0]], .send [3], .tick, .tick, .tick, .tick] = some o ∧
      ∃ socket, o.socket = some socket ∧ socket.written = [[0], [1], [2], [3]] ∧
        socket.corked = 0 := by
  obtain ⟨o, hexec⟩ : ∃ o, exec step (create READ_BUF_SIZE fun _ => 0) [.send [1], .connect,
      .send [2], .connected [[0]], .send [3], .tick, .tick, .tick, .tick] = some o := ⟨_, rfl⟩
  obtain ⟨-, hsocket⟩ := outbound_frames READ_BUF_SIZE (fun _ => 0) _ o (run_of_exec hexec)
  obtain ⟨socket, hsome, hticks⟩ : ∃ socket, o.socket = some socket ∧ o.ticks = 0 := by
    obtain rfl := Option.some.inj hexec
    exact ⟨_, rfl, rfl⟩
  obtain ⟨hwritten, hcork⟩ := hsocket socket hsome
  exact ⟨o, hexec, socket, hsome, hwritten.trans (by decide), (hcork hticks).1⟩

end Outbound

end EventQueue.Gateway
