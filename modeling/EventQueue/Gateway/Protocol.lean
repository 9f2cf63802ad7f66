import EventQueue.Broker.Message
import EventQueue.Lib.BigEndian
import EventQueue.Lib.JsString
import EventQueue.Lib.StreamDecoder

/-!
# The wire protocol of the gateway

The encoders and decoders of `gateway/src/protocol.js`. A `Buffer` is a byte string, a JavaScript
string a sequence of code units, and a `BigInt` an integer. A write that the value does not fit
throws a `RangeError`, which is `none`.

`frameCodec` is the stream of frames as the parse loop of `TcpClient` reads it: a header whose magic
number is right and whose payload has arrived is one frame.
-/

namespace EventQueue.Gateway

open BigEndian (be ofBe length_be ofBe_be)

/-- The magic number at the start of a frame. -/
def MAGIC : ℕ := 0xDEADBEEF

/-- The size of a header: magic, type, payload length, and identifier. -/
def HEADER_SIZE : ℕ := 17

/-- The type bytes of the frames. -/
inductive MsgType
  | publish | subscribe | ack | nack | heartbeat | eventData | errorResp
deriving DecidableEq, Repr

/-- The byte of a type. -/
def MsgType.toByte : MsgType → UInt8
  | .publish => 0x01
  | .subscribe => 0x02
  | .ack => 0x03
  | .nack => 0x04
  | .heartbeat => 0x05
  | .eventData => 0x06
  | .errorResp => 0x07

/-! ## Decoding -/

/-- What `decodeHeader` returns. -/
structure Header where
  /-- The magic number is right. -/
  valid : Bool
  /-- The type byte. -/
  type : UInt8
  /-- The length of the payload. -/
  payloadLen : ℕ
  /-- The identifier. -/
  msgId : UInt64
deriving DecidableEq, Repr

/-- `decodeHeader`, on a buffer of at least `HEADER_SIZE` bytes. -/
def decodeHeader (buf : Bytes) : Header where
  valid := ofBe (buf.take 4) = MAGIC
  type := buf.getD 4 0
  payloadLen := ofBe ((buf.drop 5).take 4)
  msgId := UInt64.ofNat (ofBe ((buf.drop 9).take 8))

/-- `decodeEventPayload`: the topic and the body of a PUBLISH or EVENT_DATA payload. -/
def decodeEventPayload (payload : Bytes) : JsString × Bytes :=
  if payload.length < 2 then ([], [])
  else
    let topicLen := ofBe (payload.take 2)
    (JsString.ofUtf8 ((payload.drop 2).take topicLen), payload.drop (2 + topicLen))

/-! ## Encoding -/

/-- `writeUInt16BE` and its siblings: the big-endian digits of a number that fits `k` bytes. -/
def writeUInt (k : ℕ) (n : ℤ) : Option Bytes :=
  if 0 ≤ n ∧ n < 256 ^ k then some (be k n.toNat) else none

/-- `writeHeader`. -/
def writeHeader (type : MsgType) (payloadLen : ℕ) (msgId : ℤ) : Option Bytes := do
  return be 4 MAGIC ++ [type.toByte] ++ (← writeUInt 4 payloadLen) ++ (← writeUInt 8 msgId)

/-- `encodeDataFrame`, on the bytes of the body. -/
def encodeDataFrame (type : MsgType) (topic : JsString) (body : Bytes) (msgId : ℤ) :
    Option Bytes := do
  let topicBuf := JsString.toUtf8 topic
  let header ← writeHeader type (2 + topicBuf.length + body.length) msgId
  return header ++ (← writeUInt 2 topicBuf.length) ++ topicBuf ++ body

/-- `encodeSubscribe`. -/
def encodeSubscribe (topic group : JsString) (msgId : ℤ) : Option Bytes := do
  let topicBuf := JsString.toUtf8 topic
  let groupBuf := JsString.toUtf8 group
  let header ← writeHeader .subscribe (2 + topicBuf.length + 2 + groupBuf.length) msgId
  return header ++ (← writeUInt 2 topicBuf.length) ++ topicBuf ++
    (← writeUInt 2 groupBuf.length) ++ groupBuf

/-- `encodeAck`: an ACK or NACK frame, which has no payload. -/
def encodeAck (type : MsgType) (msgId : ℤ) : Option Bytes := writeHeader type 0 msgId

/-- `encodeHeartbeat`. -/
def encodeHeartbeat : Option Bytes := writeHeader .heartbeat 0 0

/-! ## Topics -/

/-- `topicMatches`: a pattern matches itself, `*` matches everything, and a pattern that ends in
`.*` matches what starts with the rest of it. -/
def topicMatches (pattern topic : JsString) : Bool :=
  if pattern = topic then true
  else if pattern = JsString.ofString "*" then true
  else if (JsString.ofString ".*").isSuffixOf pattern then pattern.dropLast.isPrefixOf topic
  else false

/-! ## Frames -/

/-- A frame that was received. -/
structure Frame where
  /-- The type byte. -/
  type : UInt8
  /-- The identifier. -/
  msgId : UInt64
  /-- The payload. -/
  payload : Bytes
deriving DecidableEq, Repr

namespace Frame

/-- The bytes of a frame. -/
def encode (f : Frame) : Bytes :=
  be 4 MAGIC ++ [f.type] ++ be 4 f.payload.length ++ be 8 f.msgId.toNat ++ f.payload

/-- The frame at the front of a byte string, if its header is there and is valid and its payload has
arrived. -/
def decode (bs : Bytes) : Option (Frame × Bytes) :=
  if bs.length < HEADER_SIZE then none
  else
    let header := decodeHeader bs
    let totalSize := HEADER_SIZE + header.payloadLen
    if header.valid ∧ totalSize ≤ bs.length then
      some (⟨header.type, header.msgId, (bs.take totalSize).drop HEADER_SIZE⟩, bs.drop totalSize)
    else none

theorem length_encode (f : Frame) : f.encode.length = HEADER_SIZE + f.payload.length := by
  simp [encode, HEADER_SIZE]
  omega

end Frame

/-- A header does not depend on what follows it. -/
theorem decodeHeader_append {bs : Bytes} (h : HEADER_SIZE ≤ bs.length) (more : Bytes) :
    decodeHeader (bs ++ more) = decodeHeader bs := by
  unfold HEADER_SIZE at h
  have htype : (bs ++ more).getD 4 0 = bs.getD 4 0 := by
    simp [List.getD_eq_getElem?_getD, List.getElem?_append_left (show 4 < bs.length by omega)]
  have htake : ∀ n k, n + k ≤ 17 → ((bs ++ more).drop n).take k = (bs.drop n).take k := by
    intro n k hnk
    rw [List.drop_append_of_le_length (by omega), List.take_append_of_le_length (by simp; omega)]
  have hmagic := htake 0 4 (by omega)
  simp only [List.drop_zero] at hmagic
  simp only [decodeHeader, hmagic, htype, htake 5 4 (by omega), htake 9 8 (by omega)]

/-- The header of a frame whose payload's length fits is read back. -/
theorem decodeHeader_encode {f : Frame} (h : f.payload.length < 2 ^ 32) (rest : Bytes) :
    decodeHeader (f.encode ++ rest) = ⟨true, f.type, f.payload.length, f.msgId⟩ := by
  have hlen : ofBe (be 4 f.payload.length) = f.payload.length := ofBe_be (by simpa using h)
  have hid : ofBe (be 8 f.msgId.toNat) = f.msgId.toNat := ofBe_be (by simpa using f.msgId.toNat_lt)
  have hmagic : ofBe (be 4 MAGIC) = MAGIC := ofBe_be (by decide)
  -- The bytes before each field, and those from it on.
  have h₄ : f.encode ++ rest = be 4 MAGIC ++ (f.type :: (be 4 f.payload.length ++
      be 8 f.msgId.toNat ++ f.payload ++ rest)) := by
    simp [Frame.encode]
  have h₅ : f.encode ++ rest = (be 4 MAGIC ++ [f.type]) ++ (be 4 f.payload.length ++
      (be 8 f.msgId.toNat ++ f.payload ++ rest)) := by
    simp [Frame.encode]
  have h₉ : f.encode ++ rest = (be 4 MAGIC ++ [f.type] ++ be 4 f.payload.length) ++
      (be 8 f.msgId.toNat ++ (f.payload ++ rest)) := by
    simp [Frame.encode]
  simp only [decodeHeader, Header.mk.injEq]
  refine ⟨?_, ?_, ?_, ?_⟩
  · rw [h₄, List.take_left' (length_be _ _), hmagic]
    rfl
  · rw [h₄]
    simp [List.getD_eq_getElem?_getD]
  · rw [h₅, List.drop_left' (by simp), List.take_left' (length_be _ _), hlen]
  · rw [h₉, List.drop_left' (by simp), List.take_left' (length_be _ _), hid, UInt64.ofNat_toNat]

/-- When there is a frame at the front, and which. -/
theorem Frame.decode_eq_some {bs rest : Bytes} {f : Frame} :
    Frame.decode bs = some (f, rest) ↔ HEADER_SIZE ≤ bs.length ∧ (decodeHeader bs).valid = true ∧
      HEADER_SIZE + (decodeHeader bs).payloadLen ≤ bs.length ∧
      f = ⟨(decodeHeader bs).type, (decodeHeader bs).msgId,
        (bs.take (HEADER_SIZE + (decodeHeader bs).payloadLen)).drop HEADER_SIZE⟩ ∧
      rest = bs.drop (HEADER_SIZE + (decodeHeader bs).payloadLen) := by
  unfold Frame.decode
  dsimp only
  constructor
  · intro h
    split_ifs at h with hlen hvalid
    obtain ⟨rfl, rfl⟩ := Prod.mk.inj (Option.some.inj h)
    exact ⟨not_lt.mp hlen, hvalid.1, hvalid.2, rfl, rfl⟩
  · rintro ⟨hlen, hvalid, hle, rfl, rfl⟩
    rw [if_neg (not_lt.mpr hlen), if_pos ⟨hvalid, hle⟩]

/-- When there is no frame at the front. -/
theorem Frame.decode_eq_none {bs : Bytes} (h : HEADER_SIZE ≤ bs.length →
    (decodeHeader bs).valid = true → bs.length < HEADER_SIZE + (decodeHeader bs).payloadLen) :
    Frame.decode bs = none := by
  cases hdec : Frame.decode bs with
  | none => rfl
  | some p =>
    obtain ⟨f, rest⟩ := p
    obtain ⟨hlen, hvalid, hle, -⟩ := Frame.decode_eq_some.mp hdec
    exact absurd (h hlen hvalid) (not_lt.mpr hle)

/-- The frames of a stream as a codec. -/
def frameCodec : Codec UInt8 Frame where
  dec := Frame.decode
  shrinks h := by
    obtain ⟨hlen, -, -, -, rfl⟩ := Frame.decode_eq_some.mp h
    simp only [HEADER_SIZE] at *
    simp only [List.length_drop]
    omega
  stable more h := by
    obtain ⟨hlen, hvalid, hle, rfl, rfl⟩ := Frame.decode_eq_some.mp h
    rw [Frame.decode_eq_some, decodeHeader_append hlen, List.length_append,
      List.take_append_of_le_length hle, List.drop_append_of_le_length hle]
    exact ⟨by omega, hvalid, by omega, rfl, rfl⟩
  enc := Frame.encode
  Valid f := f.payload.length < 2 ^ 32
  dec_enc := by
    intro f rest hf
    have hlen := f.length_encode
    have hbytes : f.encode = (be 4 MAGIC ++ [f.type] ++ be 4 f.payload.length ++
        be 8 f.msgId.toNat) ++ f.payload := rfl
    rw [Frame.decode_eq_some, decodeHeader_encode hf, List.length_append]
    dsimp only
    rw [← hlen, List.take_left, List.drop_left, hbytes, List.drop_left' (by simp [HEADER_SIZE])]
    exact ⟨by rw [← hbytes]; omega, rfl, by omega, rfl, rfl⟩

end EventQueue.Gateway
