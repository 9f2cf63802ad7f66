import EventQueue.Gateway.Protocol

/-!
# The gateway's connection to the broker

`TcpClient` of `gateway/src/tcpClient.js`: one read buffer, one queue of outgoing frames, and the
handlers of the socket's events. The buffer, its fill level, and the queue belong to the client and
not to a socket, so they go over from one connection to the next.

`data_eq` is what the handler of a chunk amounts to, without the buffer: it parses the bytes that
were pending and the chunk, and what it leaves pending is the rest of them, or all of them when it
came upon a bad header. `TcpView` is the client at that level, which the models of the whole bridge
are built on, and `view_data` and its siblings say that the client refines it.
-/

namespace EventQueue.Gateway

/-- The least delay before a reconnect, in milliseconds. -/
def RECONNECT_MIN_MS : ℕ := 100

/-- The largest delay before a reconnect, in milliseconds. -/
def RECONNECT_MAX_MS : ℕ := 30000

/-- The size of the read buffer at first. -/
def READ_BUF_SIZE : ℕ := 2 * 1024 * 1024

/-- The number of frames that are kept while there is no connection. -/
def OUT_QUEUE_MAX : ℕ := 10000

/-! ## Buffers -/

/-- `Buffer.allocUnsafe`: memory that holds whatever it held before. -/
def allocUnsafe (memory : ℕ → UInt8) (size : ℕ) : Bytes := (List.range size).map memory

@[simp] theorem length_allocUnsafe (memory : ℕ → UInt8) (size : ℕ) :
    (allocUnsafe memory size).length = size := by
  simp [allocUnsafe]

/-- `source.copy(target, targetStart, sourceStart, sourceEnd)`: the target after it, which keeps its
length. -/
def copy (source target : Bytes) (targetStart sourceStart sourceEnd : ℕ) : Bytes :=
  let piece := ((source.take sourceEnd).drop sourceStart).take (target.length - targetStart)
  target.take targetStart ++ piece ++ target.drop (targetStart + piece.length)

/-- A copy keeps the target's length. -/
theorem length_copy {source target : Bytes} {targetStart sourceStart sourceEnd : ℕ}
    (h : targetStart ≤ target.length) :
    (copy source target targetStart sourceStart sourceEnd).length = target.length := by
  simp only [copy, List.length_append, List.length_take, List.length_drop]
  omega

/-- A copy that fits, up to its end. -/
theorem take_copy {source target : Bytes} (targetStart : ℕ) {sourceStart sourceEnd : ℕ}
    (hsource : sourceEnd ≤ source.length) (hstart : sourceStart ≤ sourceEnd)
    (htarget : targetStart + (sourceEnd - sourceStart) ≤ target.length) :
    (copy source target targetStart sourceStart sourceEnd).take
        (targetStart + (sourceEnd - sourceStart)) =
      target.take targetStart ++ (source.take sourceEnd).drop sourceStart := by
  have hpiece : ((source.take sourceEnd).drop sourceStart).length = sourceEnd - sourceStart := by
    simp; omega
  unfold copy
  dsimp only
  rw [List.take_of_length_le (by omega : ((source.take sourceEnd).drop sourceStart).length ≤ _)]
  exact List.take_left' (by simp; omega)

/-! ## The client -/

/-- A chunk of bytes that a `data` event brings. A buffer that is allocated to hold it has whatever
contents the memory had. -/
structure Chunk where
  /-- The bytes. -/
  bytes : Bytes
  /-- The memory. -/
  memory : ℕ → UInt8

/-- The state of a `TcpClient`. -/
structure TcpClient where
  /-- The read buffer. -/
  readBuf : Bytes
  /-- How much of it is filled. -/
  readLen : ℕ
  /-- The frames that wait for a connection. -/
  outQueue : List Bytes
  /-- There is a connection. -/
  connected : Bool
  /-- `destroy` was called on the current socket, which emits no more data. -/
  destroyed : Bool
  /-- The delay before the next reconnect. -/
  delay : ℕ
  /-- `stop` was called. -/
  stopping : Bool
  /-- The buffer holds what it is filled with. -/
  readLen_le : readLen ≤ readBuf.length

namespace TcpClient

/-- A new client; the source makes its buffer `READ_BUF_SIZE` bytes long. -/
def create (readBufSize : ℕ) (memory : ℕ → UInt8) : TcpClient where
  readBuf := allocUnsafe memory readBufSize
  readLen := 0
  outQueue := []
  connected := false
  destroyed := false
  delay := RECONNECT_MIN_MS
  stopping := false
  readLen_le := Nat.zero_le _

/-- The loop of `#parseFrames` from an offset, with a bound on its rounds: the frames that it emits,
the offset where it leaves off, and whether it came upon a bad header. -/
def parseLoop (readBuf : Bytes) (readLen : ℕ) : ℕ → ℕ → List Frame × ℕ × Bool
  | 0, offset => ([], offset, false)
  | fuel + 1, offset =>
    if HEADER_SIZE ≤ readLen - offset then
      let header := decodeHeader (readBuf.drop offset)
      if !header.valid then ([], offset, true)
      else
        let totalSize := HEADER_SIZE + header.payloadLen
        if readLen - offset < totalSize then ([], offset, false)
        else
          let payload := (readBuf.take (offset + totalSize)).drop (offset + HEADER_SIZE)
          let (frames, offset, bad) := parseLoop readBuf readLen fuel (offset + totalSize)
          (⟨header.type, header.msgId, payload⟩ :: frames, offset, bad)
    else ([], offset, false)

/-- `#parseFrames`: the client after it, and the frames that it emits. A bad header destroys the
socket and returns at once; otherwise what is left is moved to the front. Every frame takes a byte,
so the loop has `readLen` rounds at most. -/
def parseFrames (c : TcpClient) : TcpClient × List Frame :=
  let (frames, offset, bad) := parseLoop c.readBuf c.readLen c.readLen 0
  if bad then ({ c with destroyed := true }, frames)
  else if 0 < offset then
    if offset = c.readLen then ({ c with readLen := 0, readLen_le := Nat.zero_le _ }, frames)
    else
      ({ c with
        readBuf := copy c.readBuf c.readBuf 0 offset c.readLen
        readLen := c.readLen - offset
        readLen_le := by
          rw [length_copy (Nat.zero_le _)]
          exact (Nat.sub_le _ _).trans c.readLen_le }, frames)
  else (c, frames)

/-- The buffer that the handler of `data` copies a chunk into: the read buffer, or a larger one with
the same contents. -/
def grow (c : TcpClient) (chunk : Chunk) : Bytes :=
  if c.readBuf.length < c.readLen + chunk.bytes.length then
    copy c.readBuf
      (allocUnsafe chunk.memory (max (c.readBuf.length * 2) (c.readLen + chunk.bytes.length)))
      0 0 c.readLen
  else c.readBuf

/-- The larger buffer has room for the chunk. -/
theorem le_length_grow (c : TcpClient) (chunk : Chunk) :
    c.readLen + chunk.bytes.length ≤ (c.grow chunk).length := by
  unfold grow
  split_ifs with h
  · rw [length_copy (Nat.zero_le _), length_allocUnsafe]
    exact le_max_right _ _
  · omega

/-- The larger buffer has the same contents. -/
theorem take_grow (c : TcpClient) (chunk : Chunk) :
    (c.grow chunk).take c.readLen = c.readBuf.take c.readLen := by
  have hle := c.readLen_le
  unfold grow
  split_ifs with h
  · simpa using take_copy 0 hle (Nat.zero_le _) (by simp)
  · rfl

/-- The handler of `data`, on a socket that is not destroyed. -/
def data (c : TcpClient) (chunk : Chunk) : TcpClient × List Frame :=
  parseFrames { c with
    readBuf := copy chunk.bytes (c.grow chunk) c.readLen 0 chunk.bytes.length
    readLen := c.readLen + chunk.bytes.length
    readLen_le := by
      have h := c.le_length_grow chunk
      rw [length_copy (by omega)]
      exact h }

/-- The handler of `connect`, apart from what its listeners do: the client, and the queued frames,
which go to the socket. -/
def onConnect (c : TcpClient) : TcpClient × List Bytes :=
  ({ c with connected := true, destroyed := false, delay := RECONNECT_MIN_MS, outQueue := [] },
    c.outQueue)

/-- `#onDisconnect`. -/
def onDisconnect (c : TcpClient) : TcpClient :=
  if c.stopping then { c with connected := false }
  else { c with connected := false, delay := min (c.delay * 2) RECONNECT_MAX_MS }

/-- `send`: the client, and the frame if it goes to the socket now. -/
def send (c : TcpClient) (frame : Bytes) : TcpClient × Option Bytes :=
  if c.connected then (c, some frame)
  else if c.outQueue.length < OUT_QUEUE_MAX then
    ({ c with outQueue := c.outQueue ++ [frame] }, none)
  else (c, none)

/-- `stop`. -/
def stop (c : TcpClient) : TcpClient := { c with stopping := true, destroyed := true }

/-! ## What the handler of a chunk amounts to -/

/-- The bytes that were received and not parsed yet. -/
def pending (c : TcpClient) : Bytes := c.readBuf.take c.readLen

/-- There is a header at the front, and it is not one of this protocol. -/
def badHeader (bs : Bytes) : Bool := HEADER_SIZE ≤ bs.length && !(decodeHeader bs).valid

section Loop

variable {readBuf : Bytes} {readLen fuel offset : ℕ}

/-- Where a header has arrived, the loop reads it from the bytes between its offset and the fill
level: the bytes after those do not matter. -/
theorem decodeHeader_drop (hlen : readLen ≤ readBuf.length)
    (hheader : HEADER_SIZE ≤ readLen - offset) :
    decodeHeader (readBuf.drop offset) = decodeHeader ((readBuf.take readLen).drop offset) := by
  have hsize : 0 < HEADER_SIZE := by decide
  have hsplit : readBuf.drop offset =
      (readBuf.take readLen).drop offset ++ readBuf.drop readLen := by
    rw [← List.drop_append_of_le_length (by simp; omega), List.take_append_drop]
  rw [hsplit, decodeHeader_append (by simp; omega)]

/-- The loop stops where no frame can be read. -/
theorem parseLoop_of_none (fuel : ℕ) (hlen : readLen ≤ readBuf.length)
    (h : Frame.decode ((readBuf.take readLen).drop offset) = none) :
    parseLoop readBuf readLen (fuel + 1) offset =
      ([], offset, badHeader ((readBuf.take readLen).drop offset)) := by
  have hlength : ((readBuf.take readLen).drop offset).length = readLen - offset := by
    simp; omega
  unfold parseLoop badHeader
  by_cases hheader : HEADER_SIZE ≤ readLen - offset
  · rw [if_pos hheader, decodeHeader_drop hlen hheader]
    by_cases hvalid : (decodeHeader ((readBuf.take readLen).drop offset)).valid = true
    · have htotal : readLen - offset <
          HEADER_SIZE + (decodeHeader ((readBuf.take readLen).drop offset)).payloadLen := by
        by_contra hge
        simp [Frame.decode_eq_some.mpr ⟨by omega, hvalid, by omega, rfl, rfl⟩] at h
      simp [hvalid, htotal]
    · simp [hvalid, hlength, hheader]
  · simp [hheader, hlength]

/-- The loop emits a frame that can be read, and goes on after it. -/
theorem parseLoop_of_some (fuel : ℕ) (hlen : readLen ≤ readBuf.length) {f : Frame} {rest : Bytes}
    (h : Frame.decode ((readBuf.take readLen).drop offset) = some (f, rest)) :
    ∃ next, offset < next ∧ next ≤ readLen ∧ rest = (readBuf.take readLen).drop next ∧
      parseLoop readBuf readLen (fuel + 1) offset =
        (f :: (parseLoop readBuf readLen fuel next).1,
          (parseLoop readBuf readLen fuel next).2) := by
  have hsize : 0 < HEADER_SIZE := by decide
  have hlength : ((readBuf.take readLen).drop offset).length = readLen - offset := by
    simp; omega
  obtain ⟨hheader, hvalid, htotal, rfl, rfl⟩ := Frame.decode_eq_some.mp h
  rw [hlength] at hheader htotal
  refine ⟨offset + (HEADER_SIZE +
    (decodeHeader ((readBuf.take readLen).drop offset)).payloadLen), by omega, by omega,
    List.drop_drop .., ?_⟩
  rw [parseLoop, if_pos hheader, decodeHeader_drop hlen hheader]
  generalize hn : (decodeHeader ((readBuf.take readLen).drop offset)).payloadLen = n at *
  have hpayload : (readBuf.take (offset + (HEADER_SIZE + n))).drop (offset + HEADER_SIZE) =
      (((readBuf.take readLen).drop offset).take (HEADER_SIZE + n)).drop HEADER_SIZE := by
    simp only [List.drop_take, List.drop_drop, List.take_take]
    congr 1
    omega
  simp [hvalid, not_lt.mpr htotal, hpayload, hn]

/-- The loop reads the frames of the bytes between its offset and the fill level, and leaves off
where no more can be read. -/
theorem parseLoop_eq (hlen : readLen ≤ readBuf.length) (hfuel : readLen - offset ≤ fuel)
    (hoffset : offset ≤ readLen) :
    ∃ next, offset ≤ next ∧ next ≤ readLen ∧
      frameCodec.run ((readBuf.take readLen).drop offset) =
        ((parseLoop readBuf readLen fuel offset).1, (readBuf.take readLen).drop next) ∧
      (parseLoop readBuf readLen fuel offset).2 =
        (next, badHeader ((readBuf.take readLen).drop next)) := by
  induction fuel generalizing offset with
  | zero =>
    have hnil : (readBuf.take readLen).drop offset = [] := by simp; omega
    exact ⟨offset, le_rfl, hoffset, by rw [hnil]; rfl, by rw [hnil]; rfl⟩
  | succ fuel ih =>
    cases hdec : Frame.decode ((readBuf.take readLen).drop offset) with
    | none =>
      have hloop := parseLoop_of_none fuel hlen hdec
      exact ⟨offset, le_rfl, hoffset, by rw [frameCodec.run_of_none hdec, hloop], by rw [hloop]⟩
    | some p =>
      obtain ⟨f, rest⟩ := p
      obtain ⟨next, hlt, hle, rfl, hloop⟩ := parseLoop_of_some fuel hlen hdec
      obtain ⟨next', hle', hle'', hrun, hrest⟩ := ih (by omega) hle
      refine ⟨next', by omega, hle'', ?_, by rw [hloop, hrest]⟩
      rw [frameCodec.run_of_some hdec, hrun, hloop]

end Loop

/-- What `#parseFrames` emits, what it leaves pending, and whether it destroys the socket. -/
theorem parseFrames_eq (c : TcpClient) :
    c.parseFrames.2 = (frameCodec.run c.pending).1 ∧
      c.parseFrames.1.pending = (if badHeader (frameCodec.run c.pending).2 then c.pending
        else (frameCodec.run c.pending).2) ∧
      c.parseFrames.1.destroyed = (c.destroyed || badHeader (frameCodec.run c.pending).2) := by
  -- What the loop emits, and the offset at which it leaves off.
  obtain ⟨next, -, hle, hrun, hend⟩ := parseLoop_eq c.readLen_le (Nat.sub_zero c.readLen).le
    (Nat.zero_le _)
  have hpending : (c.readBuf.take c.readLen).drop 0 = c.pending := List.drop_zero
  rw [hpending] at hrun
  have hlen : c.pending.length = c.readLen := by
    have := c.readLen_le
    simp [pending]; omega
  unfold parseFrames
  rw [hrun]
  cases hbad : badHeader ((c.readBuf.take c.readLen).drop next) with
  | true => simp [hend, hbad, pending]
  | false =>
    simp only [hend, hbad, Bool.false_eq_true, if_false, Bool.or_false]
    split_ifs with hpos hall
    · refine ⟨rfl, ?_, rfl⟩
      simp [pending, hall]
    · refine ⟨rfl, ?_, rfl⟩
      simpa [pending] using take_copy 0 c.readLen_le hle (by
        have := c.readLen_le
        omega)
    · -- Nothing was read, and nothing is shifted.
      obtain rfl : next = 0 := by omega
      exact ⟨rfl, by simp [pending], rfl⟩

/-- What the handler of a chunk emits, what it leaves pending, and whether it destroys the
socket. -/
theorem data_eq (c : TcpClient) (chunk : Chunk) :
    (c.data chunk).2 = (frameCodec.run (c.pending ++ chunk.bytes)).1 ∧
      (c.data chunk).1.pending =
        (if badHeader (frameCodec.run (c.pending ++ chunk.bytes)).2 then c.pending ++ chunk.bytes
          else (frameCodec.run (c.pending ++ chunk.bytes)).2) ∧
      (c.data chunk).1.destroyed =
        (c.destroyed || badHeader (frameCodec.run (c.pending ++ chunk.bytes)).2) := by
  have hfilled : (copy chunk.bytes (c.grow chunk) c.readLen 0 chunk.bytes.length).take
      (c.readLen + chunk.bytes.length) = c.pending ++ chunk.bytes := by
    have hroom : c.readLen + (chunk.bytes.length - 0) ≤ (c.grow chunk).length := by
      simpa using c.le_length_grow chunk
    have h := take_copy c.readLen (le_refl chunk.bytes.length) (Nat.zero_le _) hroom
    simpa [take_grow, pending] using h
  unfold data
  rw [← hfilled]
  exact parseFrames_eq _

/-- A chunk leaves the queue alone, and does not end the connection by itself. -/
theorem data_outQueue (c : TcpClient) (chunk : Chunk) :
    (c.data chunk).1.outQueue = c.outQueue ∧ (c.data chunk).1.connected = c.connected := by
  unfold data parseFrames
  dsimp only
  split_ifs <;> exact ⟨rfl, rfl⟩

end TcpClient

/-! ## The client without its buffer -/

/-- What the rest of the gateway and the broker can tell of a `TcpClient`: not where in which buffer
its pending bytes are. -/
structure TcpView where
  /-- The bytes that were received and not parsed yet. -/
  pending : Bytes
  /-- The frames that wait for a connection. -/
  outQueue : List Bytes
  /-- There is a connection. -/
  connected : Bool
  /-- `destroy` was called on the current socket. -/
  destroyed : Bool
deriving DecidableEq, Repr

namespace TcpView

/-- A new client. -/
def create : TcpView := ⟨[], [], false, false⟩

/-- The handler of `data`. -/
def data (v : TcpView) (bytes : Bytes) : TcpView × List Frame :=
  let (frames, rest) := frameCodec.run (v.pending ++ bytes)
  if TcpClient.badHeader rest then
    ({ v with pending := v.pending ++ bytes, destroyed := true }, frames)
  else ({ v with pending := rest }, frames)

/-- The handler of `connect`, apart from what its listeners do. -/
def onConnect (v : TcpView) : TcpView × List Bytes :=
  ({ v with connected := true, destroyed := false, outQueue := [] }, v.outQueue)

/-- `#onDisconnect`. -/
def onDisconnect (v : TcpView) : TcpView := { v with connected := false }

/-- `send`: the client, and the frame if it goes to the socket now. -/
def send (v : TcpView) (frame : Bytes) : TcpView × Option Bytes :=
  if v.connected then (v, some frame)
  else if v.outQueue.length < OUT_QUEUE_MAX then
    ({ v with outQueue := v.outQueue ++ [frame] }, none)
  else (v, none)

end TcpView

namespace TcpClient

/-- What can be told of a client. -/
def view (c : TcpClient) : TcpView := ⟨c.pending, c.outQueue, c.connected, c.destroyed⟩

/-- A new client has nothing pending, whatever its buffer holds. -/
theorem view_create (readBufSize : ℕ) (memory : ℕ → UInt8) :
    (create readBufSize memory).view = TcpView.create := by
  simp [view, create, TcpView.create, pending]

/-- The buffer does not show in the handler of a chunk. -/
theorem view_data (c : TcpClient) (chunk : Chunk) :
    ((c.data chunk).1.view, (c.data chunk).2) = c.view.data chunk.bytes := by
  obtain ⟨hframes, hpending, hdestroyed⟩ := c.data_eq chunk
  obtain ⟨hqueue, hconnected⟩ := c.data_outQueue chunk
  rw [hframes, view, hpending, hdestroyed, hqueue, hconnected]
  simp only [TcpView.data, view]
  split_ifs with hbad
  · simp [hbad]
  · simp [hbad]

/-- Neither does it in the handler of `connect`. -/
theorem view_onConnect (c : TcpClient) :
    (c.onConnect.1.view, c.onConnect.2) = c.view.onConnect := rfl

/-- Nor in `#onDisconnect`. -/
theorem view_onDisconnect (c : TcpClient) : c.onDisconnect.view = c.view.onDisconnect := by
  unfold onDisconnect
  split_ifs <;> rfl

/-- Nor in `send`. -/
theorem view_send (c : TcpClient) (frame : Bytes) :
    ((c.send frame).1.view, (c.send frame).2) = c.view.send frame := by
  unfold send TcpView.send view
  dsimp only
  split_ifs <;> rfl

end TcpClient

end EventQueue.Gateway
