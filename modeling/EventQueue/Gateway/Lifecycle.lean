import EventQueue.Gateway.ConnectionIsolation
import EventQueue.Lib.Reconnector

/-!
# The life of the gateway's client

Sockets, timers, and intervals of `TcpClient`, as objects of their own: any number of sockets could
be alive, any number of calls of `connect` due, and any number of intervals running, each with the
callback that the client gave to it. `reconnects` says that there is only ever one. Until `stop` is
called, either one call of `connect` is due or one socket is alive; an interval sends heartbeats
exactly while there is a connection; and the delays are those of `Reconnector`, which the client
follows step by step (`Follows`).

A bad header is where this goes wrong. It stays in the read buffer, which outlives its socket, so
every later connection comes upon it at its first chunk, having emitted the frames in front of it
again, and is destroyed (`bad_header_is_forever`). Each time the connection itself has succeeded, so
that the delay is the least one.
-/

namespace EventQueue.Gateway

open Transition (Run exec run_of_exec)

/-! ## A bad header -/

namespace TcpClient

variable {c : TcpClient}

/-- The first chunk of each connection that brings any. -/
def firstChunks (conns : List (List Chunk)) : Bytes :=
  (conns.filterMap fun chunks => chunks.head?.map Chunk.bytes).flatten

/-- A connection of a client with a bad header behind some frames. -/
theorem connection_of_bad (h : badHeader (frameCodec.run c.pending).2 = true)
    (chunks : List Chunk) :
    (c.connection chunks).2 = (if chunks.isEmpty then [] else (frameCodec.run c.pending).1) ∧
      (c.connection chunks).1.pending = c.pending ++ firstChunks [chunks] := by
  show (c.onConnect.1.receive chunks).2 = _ ∧
    (c.onConnect.1.receive chunks).1.onDisconnect.pending = _
  rw [pending_onDisconnect]
  cases chunks with
  | nil => simp [receive, pending_onConnect, firstChunks]
  | cons chunk chunks =>
    obtain ⟨hframes, hpending, hdestroyed⟩ := c.onConnect.1.data_eq chunk
    obtain ⟨hbad, hrun⟩ := badHeader_append h chunk.bytes
    -- The frames in front of the bad header are read again, and then it stops the reader.
    rw [pending_onConnect, frameCodec.run_append, hrun] at hframes hpending hdestroyed
    rw [List.append_nil] at hframes
    rw [hbad, if_pos rfl] at hpending
    rw [hbad, Bool.or_true] at hdestroyed
    have halive : c.onConnect.1.destroyed = false := rfl
    have hrest : (c.onConnect.1.data chunk).1.receive chunks =
        ((c.onConnect.1.data chunk).1, []) := by
      cases chunks <;> simp [receive, hdestroyed]
    have hreceive : c.onConnect.1.receive (chunk :: chunks) =
        ((c.onConnect.1.data chunk).1, (c.onConnect.1.data chunk).2) := by
      rw [receive, halive, if_neg Bool.false_ne_true]
      simp only [hrest, List.append_nil]
    rw [hreceive]
    exact ⟨hframes, by simpa [firstChunks] using hpending⟩

theorem firstChunks_cons (chunks : List Chunk) (conns : List (List Chunk)) :
    firstChunks (chunks :: conns) = firstChunks [chunks] ++ firstChunks conns := by
  rw [firstChunks, ← List.singleton_append, List.filterMap_append, List.flatten_append]
  rfl

/-- Connections of a client with a bad header behind some frames. -/
theorem emitted_of_bad (conns : List (List Chunk))
    (h : badHeader (frameCodec.run c.pending).2 = true) :
    c.emitted conns = conns.map (fun chunks =>
        if chunks.isEmpty then [] else (frameCodec.run c.pending).1) ∧
      (c.after conns).pending = c.pending ++ firstChunks conns := by
  induction conns generalizing c with
  | nil => simp [emitted, after, firstChunks]
  | cons chunks conns ih =>
    obtain ⟨hframes, hpending⟩ := connection_of_bad h chunks
    obtain ⟨hbad, hrun⟩ := badHeader_append h (firstChunks [chunks])
    -- What the connection has added stands behind the bad header.
    have hleft : frameCodec.run (c.connection chunks).1.pending =
        ((frameCodec.run c.pending).1,
          (frameCodec.run c.pending).2 ++ firstChunks [chunks]) := by
      rw [hpending, frameCodec.run_append, hrun, List.append_nil]
    obtain ⟨hrest, hend⟩ := ih (c := (c.connection chunks).1) (by rw [hleft]; exact hbad)
    rw [hleft] at hrest
    refine ⟨?_, ?_⟩
    · rw [emitted, hframes, hrest, List.map_cons]
    · rw [after, hend, hpending, firstChunks_cons chunks conns, List.append_assoc]

/-- When the handler of a chunk comes upon a bad header, then whatever connections follow and
whatever they bring: each of them that brings anything emits the frames again that were read before
the bad header, and no others, and what it brought first is added to the bytes that wait. -/
theorem bad_header_is_forever (c : TcpClient) (chunk : Chunk) (hc : c.destroyed = false)
    (hbad : (c.data chunk).1.destroyed = true) (conns : List (List Chunk)) :
    (c.data chunk).1.onDisconnect.emitted conns =
        conns.map (fun chunks => if chunks.isEmpty then [] else (c.data chunk).2) ∧
      ((c.data chunk).1.onDisconnect.after conns).pending =
        c.pending ++ chunk.bytes ++ firstChunks conns := by
  obtain ⟨hframes, hpending, hdestroyed⟩ := c.data_eq chunk
  rw [hbad, hc, Bool.false_or] at hdestroyed
  rw [← hdestroyed, if_pos rfl] at hpending
  have hleft : (c.data chunk).1.onDisconnect.pending = c.pending ++ chunk.bytes := by
    rw [pending_onDisconnect, hpending]
  have hrest := emitted_of_bad (c := (c.data chunk).1.onDisconnect) conns
    (by rw [hleft]; exact hdestroyed.symm)
  rwa [hleft, ← hframes] at hrest

/-- An event, and then bytes that belong to no frame: two more connections emit the event again. -/
theorem bad_header_is_forever_oneEvent :
    ∃ (c : TcpClient) (chunk : Chunk), (c.data chunk).2 = [⟨0x06, 1, [0, 1, 0x74]⟩] ∧
      (c.data chunk).1.onDisconnect.emitted [[⟨[1], fun _ => 0⟩], [], [⟨[2], fun _ => 0⟩]] =
        [(c.data chunk).2, [], (c.data chunk).2] := by
  have hrun : frameCodec.run (Frame.encode ⟨0x06, 1, [0, 1, 0x74]⟩ ++ List.replicate 17 0) =
      ([⟨0x06, 1, [0, 1, 0x74]⟩], List.replicate 17 0) := by decide
  obtain ⟨c, hpending, halive⟩ : ∃ c : TcpClient, c.pending = [] ∧ c.destroyed = false :=
    ⟨(create 64 fun _ => 0).onConnect.1, rfl, rfl⟩
  obtain ⟨hframes, -, hdestroyed⟩ :=
    c.data_eq ⟨Frame.encode ⟨0x06, 1, [0, 1, 0x74]⟩ ++ List.replicate 17 0, fun _ => 0⟩
  rw [hpending, List.nil_append, hrun] at hframes hdestroyed
  have hbad : badHeader (List.replicate 17 0) = true := by decide
  rw [hbad, Bool.or_true] at hdestroyed
  exact ⟨c, _, hframes, (bad_header_is_forever c _ halive hdestroyed
    [[⟨[1], fun _ => 0⟩], [], [⟨[2], fun _ => 0⟩]]).1⟩

end TcpClient

/-! ## Sockets, timers, and intervals -/

/-- A client with the objects that it has made. -/
structure Lifecycle where
  /-- The client. -/
  client : TcpClient
  /-- `#socket`, by its number. -/
  socket : Option ℕ
  /-- The sockets that have not emitted `close`, each with whether it has emitted `connect`. -/
  live : List (ℕ × Bool)
  /-- The calls of `connect` that are due: that of the entry point, and those of timers, each with
  the time that it waits. -/
  calls : List ℕ
  /-- `#hbTimer`, by its number. -/
  hbTimer : Option ℕ
  /-- The intervals that run. -/
  intervals : List ℕ
  /-- The number of the next object. -/
  fresh : ℕ

/-- What can happen to a client. -/
inductive LifecycleEvent
  /-- One of the calls of `connect` that are due is made. -/
  | connect (i : ℕ)
  /-- A socket emits `connect`. -/
  | connected (k : ℕ)
  /-- A socket emits `data`. -/
  | data (k : ℕ) (chunk : Chunk)
  /-- A socket emits `close`. -/
  | close (k : ℕ)
  /-- The callback of an interval runs. -/
  | beat (i : ℕ)
  /-- `send` is called. -/
  | send (frame : Bytes)
  /-- `stop` is called. -/
  | stop

namespace Lifecycle

/-- A new client, which the entry point is about to connect. -/
def create (readBufSize : ℕ) (memory : ℕ → UInt8) : Lifecycle :=
  ⟨TcpClient.create readBufSize memory, none, [], [0], none, [], 0⟩

/-- `clearInterval(this.#hbTimer)`. -/
def clearInterval (l : Lifecycle) : Lifecycle :=
  { l with intervals := l.intervals.filter fun i => some i ≠ l.hbTimer }

/-- A socket that was destroyed emits nothing but `close`. -/
def silent (l : Lifecycle) (k : ℕ) : Bool := l.socket = some k && l.client.destroyed

/-- `connect`. -/
def connect (l : Lifecycle) : Lifecycle :=
  if l.client.stopping then l
  else
    { l with
      client := { l.client with destroyed := false }
      socket := some l.fresh
      live := l.live ++ [(l.fresh, false)]
      fresh := l.fresh + 1 }

/-- The handler of `connect`, without what is sent in it. -/
def onConnect (l : Lifecycle) (k : ℕ) : Lifecycle :=
  { l with
    client := l.client.onConnect.1
    live := l.live.map fun s => if s.1 = k then (k, true) else s
    hbTimer := some l.fresh
    intervals := l.intervals ++ [l.fresh]
    fresh := l.fresh + 1 }

/-- The handler of `close`. -/
def onClose (l : Lifecycle) (k : ℕ) : Lifecycle :=
  { l.clearInterval with
    client := l.client.onDisconnect
    live := l.live.filter fun s => s.1 ≠ k
    calls := if l.client.stopping then l.calls else l.calls ++ [l.client.delay] }

/-- The client after an event; `none` when the event cannot happen. -/
def step (l : Lifecycle) : LifecycleEvent → Option Lifecycle
  | .connect i =>
    if i < l.calls.length then some { l with calls := l.calls.eraseIdx i }.connect else none
  | .connected k => if (k, false) ∈ l.live ∧ !l.silent k then some (l.onConnect k) else none
  | .data k chunk =>
    if (k, true) ∈ l.live ∧ !l.silent k then some { l with client := (l.client.data chunk).1 }
    else none
  | .close k => if k ∈ l.live.map Prod.fst then some (l.onClose k) else none
  | .beat i =>
    if i ∈ l.intervals then
      if l.client.connected then
        encodeHeartbeat.map fun frame => { l with client := (l.client.send frame).1 }
      else some l
    else none
  | .send frame => some { l with client := (l.client.send frame).1 }
  | .stop => some { l.clearInterval with client := l.client.stop }

end Lifecycle

/-- What an event is for the client's design. -/
def LifecycleEvent.abstract : LifecycleEvent → Option Reconnector.Event
  | .connect _ => some .attempt
  | .connected _ => some .opened
  | .close _ => some .closed
  | .stop => some .stop
  | .data .. | .beat .. | .send _ => none

/-! ## The client follows its design -/

namespace Lifecycle

variable {l l' : Lifecycle} {r : Reconnector.State} {e : LifecycleEvent} {es : List LifecycleEvent}

/-- The objects of a client in a phase, and what it knows of them. -/
inductive Objects (l : Lifecycle) : Reconnector.Phase → Prop
  /-- One call of `connect` is due, and there is nothing else. -/
  | due (wait : ℕ) (hcalls : l.calls = [wait]) (hlive : l.live = [])
      (hconnected : l.client.connected = false) (hintervals : l.intervals = []) :
      Objects l (.due wait)
  /-- There is a new socket. -/
  | trying (k : ℕ) (hcalls : l.calls = []) (hlive : l.live = [(k, false)])
      (hsocket : l.socket = some k) (hconnected : l.client.connected = false)
      (hintervals : l.intervals = []) : Objects l .trying
  /-- The socket is connected, and an interval sends heartbeats unless the client was stopped. -/
  | up (k i : ℕ) (hcalls : l.calls = []) (hlive : l.live = [(k, true)])
      (hsocket : l.socket = some k) (hconnected : l.client.connected = true)
      (htimer : l.hbTimer = some i)
      (hintervals : l.intervals = if l.client.stopping then [] else [i]) : Objects l .up
  /-- There is nothing. -/
  | down (hcalls : l.calls = []) (hlive : l.live = []) (hconnected : l.client.connected = false)
      (hintervals : l.intervals = []) : Objects l .down

/-- A client follows its design. -/
structure Follows (l : Lifecycle) (r : Reconnector.State) : Prop where
  /-- The objects. -/
  objects : l.Objects r.phase
  /-- `#stopping`. -/
  stopping : l.client.stopping = r.stopping
  /-- A client that was stopped has destroyed its socket. -/
  destroyed : l.client.stopping = true → l.client.destroyed = true
  /-- `#delay`. -/
  delay : l.client.delay =
    Reconnector.backoff RECONNECT_MIN_MS RECONNECT_MAX_MS r.failures

theorem follows_create (readBufSize : ℕ) (memory : ℕ → UInt8) :
    (create readBufSize memory).Follows Reconnector.init where
  objects := .due 0 rfl rfl rfl rfl
  stopping := rfl
  destroyed h := by cases h
  delay := rfl

/-- The objects do not depend on what a client has read or queued. -/
theorem Objects.setClient {phase : Reconnector.Phase} (h : l.Objects phase) (c : TcpClient)
    (hconnected : c.connected = l.client.connected) (hstopping : c.stopping = l.client.stopping) :
    Objects { l with client := c } phase := by
  cases h with
  | due wait hcalls hlive hconn hintervals =>
    exact .due wait hcalls hlive (hconnected.trans hconn) hintervals
  | trying k hcalls hlive hsocket hconn hintervals =>
    exact .trying k hcalls hlive hsocket (hconnected.trans hconn) hintervals
  | up k i hcalls hlive hsocket hconn htimer hintervals =>
    refine .up k i hcalls hlive hsocket (hconnected.trans hconn) htimer ?_
    show l.intervals = if c.stopping then [] else [i]
    rw [hstopping, hintervals]
  | down hcalls hlive hconn hintervals =>
    exact .down hcalls hlive (hconnected.trans hconn) hintervals

/-- Nor does the design. -/
theorem Follows.setClient (h : l.Follows r) (c : TcpClient)
    (hconnected : c.connected = l.client.connected) (hstopping : c.stopping = l.client.stopping)
    (hdestroyed : l.client.destroyed = true → c.destroyed = true)
    (hdelay : c.delay = l.client.delay) : Follows { l with client := c } r where
  objects := h.objects.setClient c hconnected hstopping
  stopping := hstopping.trans h.stopping
  destroyed hstop := hdestroyed (h.destroyed (hstopping.symm.trans hstop))
  delay := hdelay.trans h.delay

/-- `send` does not change where a client is. -/
theorem Follows.send (h : l.Follows r) (frame : Bytes) :
    Follows { l with client := (l.client.send frame).1 } r := by
  have hsend : (l.client.send frame).1.connected = l.client.connected ∧
      (l.client.send frame).1.stopping = l.client.stopping ∧
      (l.client.send frame).1.destroyed = l.client.destroyed ∧
      (l.client.send frame).1.delay = l.client.delay := by
    unfold TcpClient.send
    split_ifs <;> exact ⟨rfl, rfl, rfl, rfl⟩
  obtain ⟨hconnected, hstopping, hdestroyed, hdelay⟩ := hsend
  exact h.setClient _ hconnected hstopping (fun hd => hdestroyed.trans hd) hdelay

/-- A chunk may destroy the socket, which is still alive then. -/
theorem Follows.data (h : l.Follows r) (chunk : Chunk) :
    Follows { l with client := (l.client.data chunk).1 } r := by
  have hdata : (l.client.data chunk).1.stopping = l.client.stopping ∧
      (l.client.data chunk).1.delay = l.client.delay := by
    unfold TcpClient.data TcpClient.parseFrames
    dsimp only
    split_ifs <;> exact ⟨rfl, rfl⟩
  have hdestroyed := (l.client.data_eq chunk).2.2
  exact h.setClient _ (l.client.data_outQueue chunk).2 hdata.1 (fun hd => by simp [hdestroyed, hd])
    hdata.2

/-- A call of `connect` that is made is the one that was due. -/
theorem Follows.connect (h : l.Follows r) {i : ℕ} (hi : i < l.calls.length) :
    ∃ r', Reconnector.step RECONNECT_MIN_MS RECONNECT_MAX_MS r .attempt = some r' ∧
      Follows { l with calls := l.calls.eraseIdx i }.connect r' := by
  obtain ⟨phase, failures, stopping⟩ := r
  obtain ⟨hobjects, hstopping, hdestroyed, hdelay⟩ := h
  cases hobjects with
  | due wait hcalls hlive hconn hintervals =>
    obtain rfl : i = 0 := by
      rw [hcalls, List.length_singleton] at hi
      omega
    by_cases hstop : l.client.stopping = true
    · -- `connect` does nothing.
      have hstop' : stopping = true := hstopping.symm.trans hstop
      have hconnect : Lifecycle.connect { l with calls := l.calls.eraseIdx 0 } =
          { l with calls := [] } := by
        rw [Lifecycle.connect, if_pos hstop, hcalls]
        rfl
      refine ⟨⟨.down, failures, stopping⟩, Reconnector.step_attempt_of_stopping rfl hstop', ?_⟩
      rw [hconnect]
      exact ⟨.down rfl hlive hconn hintervals, hstopping, hdestroyed, hdelay⟩
    · have hstop' : stopping = false := hstopping.symm.trans (Bool.not_eq_true _ ▸ hstop)
      have hconnect : Lifecycle.connect { l with calls := l.calls.eraseIdx 0 } =
          { l with
            calls := []
            client := { l.client with destroyed := false }
            socket := some l.fresh
            live := [(l.fresh, false)]
            fresh := l.fresh + 1 } := by
        rw [Lifecycle.connect, if_neg hstop, hcalls, hlive]
        rfl
      refine ⟨⟨.trying, failures, stopping⟩, Reconnector.step_attempt_of_running rfl hstop', ?_⟩
      rw [hconnect]
      exact ⟨.trying l.fresh rfl rfl rfl hconn hintervals, hstopping, fun h => absurd h hstop,
        hdelay⟩
  | trying k hcalls | up k i hcalls | down hcalls => simp [hcalls] at hi

/-- A socket that emits `connect` is the new one. -/
theorem Follows.onConnect (h : l.Follows r) {k : ℕ} (hk : (k, false) ∈ l.live)
    (hsilent : l.silent k = false) :
    ∃ r', Reconnector.step RECONNECT_MIN_MS RECONNECT_MAX_MS r .opened = some r' ∧
      (l.onConnect k).Follows r' := by
  obtain ⟨phase, failures, stopping⟩ := r
  obtain ⟨hobjects, hstopping, hdestroyed, hdelay⟩ := h
  cases hobjects with
  | trying k' hcalls hlive hsocket hconn hintervals =>
    obtain rfl : k = k' := by simpa [hlive] using hk
    -- It was not destroyed, so that the client was not stopped.
    have halive : l.client.destroyed = false := by simpa [silent, hsocket] using hsilent
    have hstop : l.client.stopping = false := by
      by_contra hstop
      rw [hdestroyed (Bool.not_eq_false _ ▸ hstop)] at halive
      cases halive
    have hstop' : stopping = false := hstopping.symm.trans hstop
    refine ⟨⟨.up, 0, stopping⟩, Reconnector.step_opened rfl hstop', ?_⟩
    refine ⟨.up k l.fresh hcalls ?_ hsocket rfl rfl ?_, hstopping, ?_, ?_⟩
    · simp [Lifecycle.onConnect, hlive]
    · show l.intervals ++ [l.fresh] = if l.client.stopping then [] else [l.fresh]
      simp [hintervals, hstop]
    · intro hstop''
      exact absurd (hstop.symm.trans hstop'') Bool.false_ne_true
    · exact (Reconnector.backoff_zero (show RECONNECT_MIN_MS ≤ RECONNECT_MAX_MS by decide)).symm
  | due wait hcalls hlive => simp [hlive] at hk
  | up k' i hcalls hlive => simp [hlive] at hk
  | down hcalls hlive => simp [hlive] at hk

/-- A socket that emits `close` is the only one. -/
theorem Follows.onClose (h : l.Follows r) {k : ℕ} (hk : k ∈ l.live.map Prod.fst) :
    ∃ r', Reconnector.step RECONNECT_MIN_MS RECONNECT_MAX_MS r .closed = some r' ∧
      (l.onClose k).Follows r' := by
  obtain ⟨phase, failures, stopping⟩ := r
  obtain ⟨hobjects, hstopping, hdestroyed, hdelay⟩ := h
  dsimp only at hobjects hstopping hdelay
  -- What is left of the objects, whether or not there was a connection.
  have hrest : l.calls = [] ∧ (∃ up, l.live = [(k, up)]) ∧ l.clearInterval.intervals = [] ∧
      (phase = .trying ∨ phase = .up) := by
    cases hobjects with
    | due wait hcalls hlive => simp [hlive] at hk
    | trying k' hcalls hlive hsocket hconn hintervals =>
      obtain rfl : k = k' := by simpa [hlive] using hk
      exact ⟨hcalls, ⟨_, hlive⟩, by simp [clearInterval, hintervals], .inl rfl⟩
    | up k' i hcalls hlive hsocket hconn htimer hintervals =>
      obtain rfl : k = k' := by simpa [hlive] using hk
      refine ⟨hcalls, ⟨_, hlive⟩, ?_, .inr rfl⟩
      cases hstop : l.client.stopping <;> simp [clearInterval, htimer, hintervals, hstop]
    | down hcalls hlive => simp [hlive] at hk
  obtain ⟨hcalls, ⟨up, hlive⟩, hintervals, hphase⟩ := hrest
  have hnone : l.live.filter (fun s => s.1 ≠ k) = [] := by simp [hlive]
  cases hstop : l.client.stopping with
  | true =>
    have hclose : l.onClose k = { l.clearInterval with
        client := { l.client with connected := false }
        live := []
        calls := [] } := by
      rw [Lifecycle.onClose, TcpClient.onDisconnect, if_pos hstop, if_pos hstop, hnone, hcalls]
    have hstop' : stopping = true := hstopping.symm.trans hstop
    refine ⟨⟨.down, failures, stopping⟩, Reconnector.step_closed_of_stopping hphase hstop', ?_⟩
    rw [hclose]
    exact ⟨.down rfl rfl rfl hintervals, hstopping, hdestroyed, hdelay⟩
  | false =>
    have hrunning : ¬l.client.stopping = true := by simp [hstop]
    have hclose : l.onClose k = { l.clearInterval with
        client := { l.client with
          connected := false
          delay := min (l.client.delay * 2) RECONNECT_MAX_MS }
        live := []
        calls := [l.client.delay] } := by
      rw [Lifecycle.onClose, TcpClient.onDisconnect, if_neg hrunning, if_neg hrunning, hnone,
        hcalls]
      rfl
    have hstop' : stopping = false := hstopping.symm.trans hstop
    refine ⟨⟨.due _, failures + 1, stopping⟩,
      Reconnector.step_closed_of_running hphase hstop', ?_⟩
    rw [hclose]
    refine ⟨.due _ ?_ rfl rfl hintervals, hstopping, hdestroyed, ?_⟩
    · show [l.client.delay] = _
      rw [hdelay]
    · show min (l.client.delay * 2) RECONNECT_MAX_MS = _
      rw [hdelay, Reconnector.backoff_succ]

/-- `stop` ends the heartbeats and destroys the socket, which is alive until it emits `close`. -/
theorem Follows.stop (h : l.Follows r) :
    Follows { l.clearInterval with client := l.client.stop } { r with stopping := true } := by
  obtain ⟨phase, failures, stopping⟩ := r
  obtain ⟨hobjects, hstopping, hdestroyed, hdelay⟩ := h
  refine ⟨?_, rfl, fun _ => rfl, hdelay⟩
  cases hobjects with
  | due wait hcalls hlive hconn hintervals =>
    exact .due wait hcalls hlive hconn (by simp [clearInterval, hintervals])
  | trying k hcalls hlive hsocket hconn hintervals =>
    exact .trying k hcalls hlive hsocket hconn (by simp [clearInterval, hintervals])
  | up k i hcalls hlive hsocket hconn htimer hintervals =>
    refine .up k i hcalls hlive hsocket hconn htimer ?_
    show l.clearInterval.intervals = []
    cases hstop : l.client.stopping <;> simp [clearInterval, htimer, hintervals, hstop]
  | down hcalls hlive hconn hintervals =>
    exact .down hcalls hlive hconn (by simp [clearInterval, hintervals])

/-- Every event is one of the design, or none. -/
theorem Follows.step (h : l.Follows r) (hstep : l.step e = some l') :
    ∃ r', exec (Reconnector.step RECONNECT_MIN_MS RECONNECT_MAX_MS) r e.abstract.toList = some r' ∧
      l'.Follows r' := by
  cases e with
  | connect i =>
    simp only [Lifecycle.step] at hstep
    split_ifs at hstep with hi
    obtain rfl := Option.some.inj hstep
    obtain ⟨r', hr', hfollows⟩ := h.connect hi
    exact ⟨r', Reconnector.exec_singleton hr', hfollows⟩
  | connected k =>
    simp only [Lifecycle.step] at hstep
    split_ifs at hstep with hk
    obtain rfl := Option.some.inj hstep
    obtain ⟨r', hr', hfollows⟩ := h.onConnect hk.1 (by simpa using hk.2)
    exact ⟨r', Reconnector.exec_singleton hr', hfollows⟩
  | data k chunk =>
    simp only [Lifecycle.step] at hstep
    split_ifs at hstep
    obtain rfl := Option.some.inj hstep
    exact ⟨r, rfl, h.data chunk⟩
  | close k =>
    simp only [Lifecycle.step] at hstep
    split_ifs at hstep with hk
    obtain rfl := Option.some.inj hstep
    obtain ⟨r', hr', hfollows⟩ := h.onClose hk
    exact ⟨r', Reconnector.exec_singleton hr', hfollows⟩
  | beat i =>
    simp only [Lifecycle.step] at hstep
    split_ifs at hstep
    · obtain ⟨frame, -, rfl⟩ := Option.map_eq_some_iff.mp hstep
      exact ⟨r, rfl, h.send frame⟩
    · obtain rfl := Option.some.inj hstep
      exact ⟨r, rfl, h⟩
  | send frame =>
    obtain rfl := Option.some.inj hstep
    exact ⟨r, rfl, h.send frame⟩
  | stop =>
    obtain rfl := Option.some.inj hstep
    exact ⟨_, Reconnector.exec_singleton rfl, h.stop⟩

/-! ## Every run -/

/-- In every run of a client, whatever its sockets and timers do: there is never more than one
socket alive or call of `connect` due, and until `stop` is called there is one; one interval sends
heartbeats while there is a connection and `stop` was not called, and none does otherwise; and the
delay before a call of `connect` is `RECONNECT_MIN_MS`, doubled for every failure since the last
connection but the first, up to `RECONNECT_MAX_MS`. -/
theorem reconnects (readBufSize : ℕ) (memory : ℕ → UInt8)
    (hexec : exec step (create readBufSize memory) es = some l) :
    l.live.length + l.calls.length ≤ 1 ∧
    (l.client.stopping = false → l.live.length + l.calls.length = 1) ∧
    l.intervals.length = (if l.client.connected && !l.client.stopping then 1 else 0) ∧
    (l.client.connected = true → ∃ k, l.socket = some k ∧ l.live = [(k, true)]) ∧
    ∃ r, exec (Reconnector.step RECONNECT_MIN_MS RECONNECT_MAX_MS) Reconnector.init
        (es.filterMap LifecycleEvent.abstract) = some r ∧
      l.client.delay = Reconnector.backoff RECONNECT_MIN_MS RECONNECT_MAX_MS r.failures ∧
      ∀ wait ∈ l.calls, wait = 0 ∨ ∃ n, r.failures = n + 1 ∧
        wait = Reconnector.backoff RECONNECT_MIN_MS RECONNECT_MAX_MS n := by
  obtain ⟨r, hr, hfollows⟩ := Transition.exec_simulated (R := Follows)
    (f := LifecycleEvent.abstract) (fun _ _ _ _ hl h => hl.step h)
    (follows_create readBufSize memory) hexec
  have hsound := Reconnector.sound_of_exec hr
  obtain ⟨phase, failures, stopping⟩ := r
  obtain ⟨hobjects, hstopping, -, hdelay⟩ := hfollows
  dsimp only at hobjects hstopping hdelay
  cases hobjects with
  | due wait hcalls hlive hconn hintervals =>
    refine ⟨by simp [hcalls, hlive], by simp [hcalls, hlive], by simp [hintervals, hconn],
      by simp [hconn], _, hr, hdelay, fun w hw => ?_⟩
    obtain rfl : w = wait := by simpa [hcalls] using hw
    exact hsound.wait w rfl
  | trying k hcalls hlive hsocket hconn hintervals =>
    exact ⟨by simp [hcalls, hlive], by simp [hcalls, hlive], by simp [hintervals, hconn],
      by simp [hconn], _, hr, hdelay, by simp [hcalls]⟩
  | up k i hcalls hlive hsocket hconn htimer hintervals =>
    refine ⟨by simp [hcalls, hlive], by simp [hcalls, hlive], ?_,
      fun _ => ⟨k, hsocket, hlive⟩, _, hr, hdelay, by simp [hcalls]⟩
    cases hstop : l.client.stopping <;> simp [hintervals, hconn, hstop]
  | down hcalls hlive hconn hintervals =>
    have hstop : l.client.stopping = true := hstopping.trans (hsound.down rfl)
    exact ⟨by simp [hcalls, hlive], by simp [hstop], by simp [hintervals, hconn], by simp [hconn],
      _, hr, hdelay, by simp [hcalls]⟩

/-- Two attempts fail, the third succeeds, and then the connection closes. -/
def thirdAttempt : List LifecycleEvent :=
  [.connect 0, .close 0, .connect 0, .close 1, .connect 0, .connected 2, .beat 3, .close 2]

/-- The call of `connect` that is due then waits for the least delay. -/
theorem reconnects_thirdAttempt :
    ∃ l, exec step (create 64 fun _ => 0) thirdAttempt = some l ∧ l.calls = [RECONNECT_MIN_MS] ∧
      l.live.length + l.calls.length = 1 ∧ l.intervals.length = 0 := by
  obtain ⟨l, hl, hend⟩ := (Option.any_eq_true _ _).mp
    (show (exec step (create 64 fun _ => 0) thirdAttempt).any (fun l =>
      l.calls = [RECONNECT_MIN_MS] ∧ l.client.stopping = false ∧ l.client.connected = false) = true
      by decide)
  obtain ⟨hcalls, hstop, hconn⟩ := of_decide_eq_true hend
  obtain ⟨-, hone, hintervals, -⟩ := reconnects 64 (fun _ => 0) hl
  rw [hconn, Bool.false_and, if_neg Bool.false_ne_true] at hintervals
  exact ⟨l, hl, hcalls, hone hstop, hintervals⟩

end Lifecycle

end EventQueue.Gateway
