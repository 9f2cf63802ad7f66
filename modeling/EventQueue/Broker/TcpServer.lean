import EventQueue.Broker.Protocol

/-!
# The broker's reader

The read loop of `TcpServer::handle_client`: what `recv` returns is put at the end of `read_buf`,
and complete frames are taken off its front and handed to `on_frame_`, until a header is bad or the
connection ends. `recv` may cut the stream anywhere.
-/

namespace EventQueue.Broker

/-- What `handle_client` hands to `on_frame_`. -/
structure RawFrame where
  /-- The type byte. -/
  type : UInt8
  /-- The identifier. -/
  msg_id : UInt64
  /-- The payload. -/
  payload : Bytes
deriving DecidableEq, Repr

/-- The inner loop, with a bound on its rounds: the frames, what is left of `read_buf`, and whether
the loop came upon a bad header. -/
def parseLoop : ℕ → Bytes → List RawFrame × Bytes × Bool
  | 0, read_buf => ([], read_buf, false)
  | fuel + 1, read_buf =>
    if headerSize ≤ read_buf.length then
      let hdr := decodeHeader read_buf
      if !hdr.valid then ([], read_buf, true)
      else
        let total_frame := headerSize + hdr.payload_len.toNat
        if read_buf.length < total_frame then ([], read_buf, false)
        else
          let payload := (read_buf.take total_frame).drop headerSize
          let (frames, read_buf, bad) := parseLoop fuel (read_buf.drop total_frame)
          (⟨hdr.type, hdr.msg_id, payload⟩ :: frames, read_buf, bad)
    else ([], read_buf, false)

/-- The outer loop, on what `recv` returns one time after the other: the frames, `read_buf` at the
end, and whether the connection is dropped for a bad header. Every frame takes a byte, so the inner
loop has as many rounds as there are bytes at most. -/
def handleClient (read_buf : Bytes) : List Bytes → List RawFrame × Bytes × Bool
  | [] => ([], read_buf, false)
  | chunk :: chunks =>
    let (frames, read_buf, bad) := parseLoop (read_buf ++ chunk).length (read_buf ++ chunk)
    if bad then (frames, read_buf, true)
    else
      let (frames', read_buf, bad) := handleClient read_buf chunks
      (frames ++ frames', read_buf, bad)

end EventQueue.Broker
