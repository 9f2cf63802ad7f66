import EventQueue.Broker.TcpServer
import EventQueue.Bridge.Wire
import EventQueue.Gateway.ConnectionIsolation

/-!
# The two framers

`handle_client` erases each frame from the front of a vector; `#parseFrames` walks an offset through
a buffer that it shifts and grows. Both read the frames of the stream, however it is cut: the
reference is `frameCodec.run` on the whole stream, and its law of incremental parsing (`run_append`)
carries the induction over the chunks.

`encodeAll_run` accounts for the bytes: those of the frames, and then those that are left, are the
bytes that came.
-/

namespace EventQueue.Bridge

open BigEndian (be ofBe be_ofBe)
open Gateway (Frame frameCodec HEADER_SIZE TcpClient Chunk)
open Gateway.TcpClient (badHeader)
open Broker (RawFrame)

/-- A frame as `on_frame_` gets it. -/
def toRaw (f : Frame) : RawFrame := ⟨f.type, f.msgId, f.payload⟩

/-! ## Bytes and frames -/

/-- The two header decoders agree. -/
theorem brokerHeader_eq {bs : Bytes} (h : HEADER_SIZE ≤ bs.length) :
    (Broker.decodeHeader bs).valid = (Gateway.decodeHeader bs).valid ∧
      (Broker.decodeHeader bs).type = (Gateway.decodeHeader bs).type ∧
      (Broker.decodeHeader bs).payload_len.toNat = (Gateway.decodeHeader bs).payloadLen ∧
      (Broker.decodeHeader bs).msg_id = (Gateway.decodeHeader bs).msgId := by
  have hsize : HEADER_SIZE = 17 := rfl
  -- The three fields are read from so many bytes each.
  have hmagic : (bs.take 4).length = 4 := by simp; omega
  have hlen : ((bs.drop 5).take 4).length = 4 := by simp; omega
  have hid : ((bs.drop 9).take 8).length = 8 := by simp; omega
  refine ⟨?_, ?_, Broker.toBe32_load32 hlen, ?_⟩
  · have hvalid : Broker.toBe32 (Broker.load32 (bs.take 4)) = Broker.frameMagic ↔
        ofBe (bs.take 4) = Gateway.MAGIC := by
      rw [← UInt32.toNat_inj, Broker.toBe32_load32 hmagic]
      rfl
    simp only [Broker.decodeHeader, Gateway.decodeHeader, hvalid]
  · simp [Broker.decodeHeader, Gateway.decodeHeader, List.headD_eq_head?_getD,
      List.getD_eq_getElem?_getD]
  · apply UInt64.toNat_inj.mp
    have hlt : ofBe ((bs.drop 9).take 8) < 2 ^ 64 := by
      have := BigEndian.ofBe_lt ((bs.drop 9).take 8)
      rw [hid] at this
      norm_num at this ⊢
      exact this
    simp only [Broker.decodeHeader, Gateway.decodeHeader]
    rw [Broker.toBe64_load64 hid, UInt64.toNat_ofNat', Nat.mod_eq_of_lt hlt]

/-- The bytes that a frame is read from are those of the frame. -/
theorem eq_encode_append {bs rest : Bytes} {f : Frame} (h : Frame.decode bs = some (f, rest)) :
    bs = f.encode ++ rest := by
  obtain ⟨hheader, hvalid, htotal, rfl, rfl⟩ := Gateway.Frame.decode_eq_some.mp h
  have hsize : HEADER_SIZE = 17 := rfl
  generalize hn : (Gateway.decodeHeader bs).payloadLen = n at *
  rw [hsize] at *
  -- The digits of what a field denotes are the bytes of the field.
  have hdigits : ∀ i k, i + k ≤ bs.length →
      be k (ofBe ((bs.drop i).take k)) = (bs.drop i).take k := by
    intro i k hik
    have hlen : ((bs.drop i).take k).length = k := by simp; omega
    have hbe := be_ofBe ((bs.drop i).take k)
    rwa [hlen] at hbe
  have hmagic : be 4 Gateway.MAGIC = bs.take 4 := by
    have hmagic : ofBe (bs.take 4) = Gateway.MAGIC := by
      simpa [Gateway.decodeHeader] using hvalid
    have h0 := hdigits 0 4 (by omega)
    rwa [List.drop_zero, hmagic] at h0
  have htype : [(Gateway.decodeHeader bs).type] = (bs.drop 4).take 1 := by
    have hlt : 4 < bs.length := by omega
    rw [List.drop_eq_getElem_cons hlt, List.take_succ_cons, List.take_zero]
    simp [Gateway.decodeHeader, List.getD_eq_getElem?_getD, List.getElem?_eq_getElem hlt]
  have hpayload : (bs.take (17 + n)).drop 17 = (bs.drop 17).take n := by
    rw [List.drop_take, Nat.add_sub_cancel_left]
  have hpayloadLen : ((bs.drop 17).take n).length = n := by simp; omega
  have hlen : be 4 n = (bs.drop 5).take 4 := by
    rw [← hn]
    exact hdigits 5 4 (by omega)
  have hid : be 8 (Gateway.decodeHeader bs).msgId.toNat = (bs.drop 9).take 8 := by
    have hlt : ofBe ((bs.drop 9).take 8) < 2 ^ 64 := by
      have hlt := BigEndian.ofBe_lt ((bs.drop 9).take 8)
      have hlen : ((bs.drop 9).take 8).length = 8 := by simp; omega
      rw [hlen] at hlt
      norm_num at hlt ⊢
      exact hlt
    simp only [Gateway.decodeHeader]
    rw [UInt64.toNat_ofNat', Nat.mod_eq_of_lt hlt]
    exact hdigits 9 8 (by omega)
  rw [Frame.encode]
  dsimp only
  rw [hpayload, hpayloadLen, hmagic, htype, hlen, hid, ← List.take_add, ← List.take_add,
    ← List.take_add, ← List.take_add, List.take_append_drop]

/-- The bytes of the frames, and what is left, are the bytes of the stream. -/
theorem encodeAll_run (bs : Bytes) :
    frameCodec.encodeAll (frameCodec.run bs).1 ++ (frameCodec.run bs).2 = bs := by
  induction bs using frameCodec.run_induction with
  | stop bs h => simp [frameCodec.run_of_none h]
  | item bs f rest h ih =>
    rw [frameCodec.run_of_some h, Codec.encodeAll_cons, List.append_assoc, ih]
    exact (eq_encode_append h).symm

/-! ## The broker's loops -/

/-- The inner loop reads the frames of `read_buf`, and leaves off where no more can be read. -/
theorem brokerLoop_eq {fuel : ℕ} {bs : Bytes} (h : bs.length ≤ fuel) :
    Broker.parseLoop fuel bs =
      ((frameCodec.run bs).1.map toRaw, (frameCodec.run bs).2,
        badHeader (frameCodec.run bs).2) := by
  have hsize : Broker.headerSize = HEADER_SIZE := rfl
  -- Each round takes a frame off the front, so that the bound shrinks with the bytes.
  induction fuel generalizing bs with
  | zero =>
    obtain rfl : bs = [] := List.length_eq_zero_iff.mp (by omega)
    rfl
  | succ fuel ih =>
    rw [Broker.parseLoop, hsize]
    by_cases hheader : HEADER_SIZE ≤ bs.length
    · obtain ⟨hvalid, htype, hlen, hid⟩ := brokerHeader_eq hheader
      rw [if_pos hheader]
      dsimp only
      rw [hvalid, hlen]
      cases hv : (Gateway.decodeHeader bs).valid with
      | false =>
        -- A bad header: the loop gives up, and no frame can be read.
        have hbad : badHeader bs = true := by simp [badHeader, hheader, hv]
        obtain ⟨-, hrun⟩ := Gateway.badHeader_append hbad []
        rw [List.append_nil] at hrun
        simp [hrun, hbad]
      | true =>
        simp only [Bool.not_true, Bool.false_eq_true, if_false]
        by_cases htotal : HEADER_SIZE + (Gateway.decodeHeader bs).payloadLen ≤ bs.length
        · have hdec : frameCodec.dec bs = some _ :=
            Gateway.Frame.decode_eq_some.mpr ⟨hheader, hv, htotal, rfl, rfl⟩
          have hrest := @ih (bs.drop (HEADER_SIZE + (Gateway.decodeHeader bs).payloadLen))
            (by simp [HEADER_SIZE] at *; omega)
          rw [if_neg (by omega), frameCodec.run_of_some hdec, hrest, htype, hid]
          rfl
        · have hnone : frameCodec.dec bs = none :=
            Gateway.Frame.decode_eq_none fun _ _ => by omega
          -- A good header whose payload is not all there yet.
          have hgood : badHeader bs = false := by simp [badHeader, hv]
          rw [if_pos (by omega), frameCodec.run_of_none hnone, hgood]
          rfl
    · have hnone : frameCodec.dec bs = none :=
        Gateway.Frame.decode_eq_none fun hle _ => absurd hle hheader
      have hgood : badHeader bs = false := by simp [badHeader, hheader]
      rw [if_neg hheader, frameCodec.run_of_none hnone, hgood]
      rfl

/-- What the outer loop hands over, and what it keeps: it reads the frames of what it has seen,
which is all unless a bad header ends the connection, and then there are no more frames in the
rest. -/
theorem handleClient_eq {read_buf : Bytes} (hbuf : frameCodec.dec read_buf = none)
    (chunks : List Bytes) :
    (Broker.handleClient read_buf chunks).1 =
        (frameCodec.run (read_buf ++ chunks.flatten)).1.map toRaw ∧
      ∃ seen, seen <+: chunks ∧
        ((Broker.handleClient read_buf chunks).2.2 = false → seen = chunks) ∧
        (frameCodec.run (read_buf ++ seen.flatten)).1 =
          (frameCodec.run (read_buf ++ chunks.flatten)).1 ∧
        (Broker.handleClient read_buf chunks).2.1 =
          (frameCodec.run (read_buf ++ seen.flatten)).2 := by
  -- The induction is on the chunks, from any buffer that no frame can be read from.
  induction chunks generalizing read_buf with
  | nil =>
    refine ⟨?_, [], List.prefix_refl _, fun _ => rfl, rfl, ?_⟩
    all_goals simp [Broker.handleClient, frameCodec.run_of_none hbuf]
  | cons chunk chunks ih =>
    have hwhole := frameCodec.run_append (read_buf ++ chunk)
    rw [Broker.handleClient, brokerLoop_eq le_rfl, List.flatten_cons, ← List.append_assoc, hwhole]
    dsimp only
    cases hbad : badHeader (frameCodec.run (read_buf ++ chunk)).2 with
    | true =>
      -- The connection ends here, and the rest would not have made a frame.
      obtain ⟨-, hrun⟩ := Gateway.badHeader_append hbad chunks.flatten
      rw [hrun]
      exact ⟨by simp, [chunk], by simp, by simp, by simp, by simp⟩
    | false =>
      obtain ⟨hframes, seen, hseen, hall, hsame, hleft⟩ :=
        ih (frameCodec.dec_run_snd (read_buf ++ chunk))
      refine ⟨by simp [hframes], chunk :: seen, by simpa using hseen, ?_, ?_, ?_⟩
      · intro h
        simpa using hall (by simpa using h)
      · rw [List.flatten_cons, ← List.append_assoc, hwhole, hsame]
      · rw [List.flatten_cons, ← List.append_assoc, hwhole, ← hleft]
        simp

/-! ## The gateway's buffer -/

/-- What the client's buffer holds on a connection. As long as the connection lives, the bytes of
the frames so far and the buffer are what was pending and what came. When a bad header ends it, the
buffer has not been shifted: it goes back to the end of the frames before the last chunk. -/
theorem receive_bytes {c : TcpClient} (hc : c.destroyed = false) (chunks : List Chunk) :
    if (c.receive chunks).1.destroyed then
      ∃ seen last rest, chunks = seen ++ last :: rest ∧ (c.receive seen).1.destroyed = false ∧
        frameCodec.encodeAll (c.receive seen).2 ++ (c.receive chunks).1.pending =
          c.pending ++ Gateway.received (seen ++ [last])
    else frameCodec.encodeAll (c.receive chunks).2 ++ (c.receive chunks).1.pending =
      c.pending ++ Gateway.received chunks := by
  induction chunks generalizing c with
  | nil => simp [TcpClient.receive, hc, Gateway.received]
  | cons chunk chunks ih =>
    obtain ⟨hframes, hpending, hdestroyed⟩ := c.data_eq chunk
    have hbytes := encodeAll_run (c.pending ++ chunk.bytes)
    have hreceived : ∀ cs, Gateway.received (chunk :: cs) = chunk.bytes ++ Gateway.received cs :=
      fun cs => by simp [Gateway.received]
    have hreceive : ∀ cs, c.receive (chunk :: cs) = (((c.data chunk).1.receive cs).1,
        (c.data chunk).2 ++ ((c.data chunk).1.receive cs).2) := by
      intro cs
      simp [TcpClient.receive, hc]
    rw [hc, Bool.false_or] at hdestroyed
    rw [hreceive]
    dsimp only
    cases hbad : badHeader (frameCodec.run (c.pending ++ chunk.bytes)).2 with
    | true =>
      -- The socket is destroyed, and the chunks behind this one are not taken.
      have hrest : (c.data chunk).1.receive chunks = ((c.data chunk).1, []) := by
        cases chunks <;> simp [TcpClient.receive, hdestroyed, hbad]
      rw [hbad] at hdestroyed hpending
      rw [hrest, hdestroyed, if_pos rfl]
      refine ⟨[], chunk, chunks, rfl, hc, ?_⟩
      simpa [TcpClient.receive, Gateway.received] using hpending
    | false =>
      rw [hbad] at hdestroyed hpending
      simp only [Bool.false_eq_true, if_false] at hpending
      have hrest := ih hdestroyed
      split_ifs at hrest ⊢ with hlast
      · obtain ⟨seen, last, rest, rfl, halive, heq⟩ := hrest
        refine ⟨chunk :: seen, last, rest, rfl, by rw [hreceive]; exact halive, ?_⟩
        rw [hreceive, List.cons_append, hreceived, Codec.encodeAll_append, List.append_assoc, heq,
          hpending, hframes, ← List.append_assoc, hbytes, List.append_assoc]
      · rw [Codec.encodeAll_append, List.append_assoc, hrest, hpending, hframes,
          ← List.append_assoc, hbytes, hreceived, List.append_assoc]

/-! ## Both framers -/

/-- The frame that `on_frame_` got. -/
def ofRaw (f : RawFrame) : Frame := ⟨f.type, f.msg_id, f.payload⟩

/-- However the stream is cut, the broker's reader hands over, and a new client of the gateway emits
on its first connection, the frames of the whole stream. Neither loses or duplicates a byte: the
bytes of the frames and the buffer are what the reader has seen, which is all as long as the
connection lives. The reader has seen everything up to the chunk with a bad header; the client's
buffer then still has all bytes since the end of the frames before that chunk. -/
theorem framers_read_stream (cuts : List Bytes) (chunks : List Chunk) (readBufSize : ℕ)
    (memory : ℕ → UInt8) :
    let server := Broker.handleClient [] cuts
    let client := (TcpClient.create readBufSize memory).onConnect.1
    (server.1 = (frameCodec.run cuts.flatten).1.map toRaw ∧
      (client.receive chunks).2 = (frameCodec.run (Gateway.received chunks)).1) ∧
    (∃ seen, seen <+: cuts ∧ (server.2.2 = false → seen = cuts) ∧
      frameCodec.encodeAll (server.1.map ofRaw) ++ server.2.1 = seen.flatten) ∧
    (if (client.receive chunks).1.destroyed then
      ∃ seen last rest, chunks = seen ++ last :: rest ∧ (client.receive seen).1.destroyed = false ∧
        frameCodec.encodeAll (client.receive seen).2 ++ (client.receive chunks).1.pending =
          Gateway.received (seen ++ [last])
    else frameCodec.encodeAll (client.receive chunks).2 ++ (client.receive chunks).1.pending =
      Gateway.received chunks) := by
  intro server client
  have hclient : client.destroyed = false := rfl
  have hpending : client.pending = [] := rfl
  have hnil : frameCodec.dec [] = none := rfl
  obtain ⟨hframes, seen, hseen, hall, hsame, hleft⟩ := handleClient_eq hnil cuts
  simp only [List.nil_append] at hframes hsame hleft
  refine ⟨⟨hframes, ?_⟩, ⟨seen, hseen, hall, ?_⟩, ?_⟩
  · by_cases hne : chunks = []
    · subst hne
      rfl
    · have h := (TcpClient.receive_eq hclient hne).1
      rwa [hpending, List.nil_append] at h
  · -- The frames that were handed over, and what is left, are the bytes that were seen.
    have hraw : server.1.map ofRaw = (frameCodec.run seen.flatten).1 := by
      rw [hsame]
      show (Broker.handleClient [] cuts).1.map ofRaw = _
      rw [hframes, List.map_map]
      exact List.map_id _
    rw [hraw]
    show _ ++ (Broker.handleClient [] cuts).2.1 = _
    rw [hleft]
    exact encodeAll_run seen.flatten
  · have h := receive_bytes hclient chunks
    simpa only [hpending, List.nil_append] using h

end EventQueue.Bridge
