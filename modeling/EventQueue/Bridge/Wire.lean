import EventQueue.Broker.Protocol
import EventQueue.Gateway.Protocol

/-!
# The two ends of the wire

`Protocol.hpp` and `protocol.js` are written apart: the one swaps the bytes of words and copies
memory, the other calls the big-endian writers of `Buffer`. Every encoder of either language writes
a `Frame` with some payload (`encodeFrame_eq` and its siblings), both header decoders read its
header back (`Gateway.decodeHeader_encode`, `brokerHeader_encode`), and the payload decoders read
the payload's parts by their length prefixes.
-/

namespace EventQueue.Bridge

open BigEndian (be ofBe length_be ofBe_be be_ofBe)
open Gateway (Frame MsgType HEADER_SIZE)

/-! ## Length prefixes -/

/-- The bytes of a length prefix are its big-endian digits. -/
theorem lengthPrefix_eq (len : UInt16) : Broker.lengthPrefix len = be 2 len.toNat := by
  have hmem := Broker.mem16_eq len
  have hlow : (len &&& 0xFF).toUInt8 = len.toUInt8 := by
    apply UInt8.toNat_inj.mp
    rw [UInt16.toNat_toUInt8, UInt16.toNat_toUInt8, UInt16.toNat_and,
      show (0xFF : UInt16).toNat = 2 ^ 8 - 1 from rfl, Nat.and_two_pow_sub_one_eq_mod, Nat.mod_mod]
  rw [← List.reverse_reverse (be 2 len.toNat), ← hmem, Broker.lengthPrefix, hlow]
  rfl

/-- A length is read from the two bytes at its offset. -/
theorem readLength_eq {payload : Bytes} {offset : ℕ} (h : offset + 2 ≤ payload.length) :
    (Broker.readLength payload offset).toNat = ofBe ((payload.drop offset).take 2) := by
  have h₀ : offset < payload.length := by omega
  have h₁ : offset + 1 < payload.length := by omega
  have hbytes : (payload.drop offset).take 2 = [payload[offset], payload[offset + 1]] := by
    rw [List.drop_eq_getElem_cons h₀, List.drop_eq_getElem_cons h₁]
    rfl
  have hfirst := payload[offset].toNat_lt
  have hsecond := payload[offset + 1].toNat_lt
  rw [hbytes, Broker.readLength, List.getD_eq_getElem?_getD, List.getD_eq_getElem?_getD,
    List.getElem?_eq_getElem h₀, List.getElem?_eq_getElem h₁, UInt16.toNat_or,
    UInt16.toNat_shiftLeft]
  simp only [Option.getD_some, UInt8.toNat_toUInt16, ofBe, List.foldl_cons, List.foldl_nil]
  have hshift : payload[offset].toNat <<< (UInt16.toNat 8 % 16) % 2 ^ 16 =
      payload[offset].toNat * 2 ^ 8 := by
    rw [show UInt16.toNat 8 % 16 = 8 from rfl, Nat.shiftLeft_eq]
    omega
  rw [hshift, Nat.mul_comm, ← Nat.two_pow_add_eq_or_of_lt hsecond]
  omega

/-- A length prefix at an offset is read back. -/
theorem readLength_append {n : ℕ} (h : n < 2 ^ 16) (before after : Bytes) :
    (Broker.readLength (before ++ be 2 n ++ after) before.length).toNat = n := by
  rw [readLength_eq (by simp), List.append_assoc, List.drop_left, List.take_left' (length_be 2 n),
    ofBe_be (by simpa using h)]

/-! ## Encoders -/

/-- The frame of a PUBLISH or EVENT_DATA message. -/
def dataFrame (type : MsgType) (id : UInt64) (topic body : Bytes) : Frame :=
  ⟨type.toByte, id, be 2 topic.length ++ topic ++ body⟩

/-- The frame of a SUBSCRIBE message. -/
def subscribeFrame (id : UInt64) (topic group : Bytes) : Frame :=
  ⟨MsgType.subscribe.toByte, id, be 2 topic.length ++ topic ++ be 2 group.length ++ group⟩

/-- The header that the encoders of the broker write. -/
theorem encodeHeader_eq (type : Broker.MessageType) (payload_len : UInt32) (id : UInt64) :
    Broker.encodeHeader type payload_len id =
      be 4 Gateway.MAGIC ++ [type.toByte] ++ be 4 payload_len.toNat ++ be 8 id.toNat := by
  rw [Broker.encodeHeader, Broker.write_be32_eq, Broker.write_be32_eq, Broker.write_be64_eq]
  rfl

/-- The header that the encoders of the gateway write. -/
theorem writeHeader_eq (type : MsgType) {payloadLen : ℕ} (h : payloadLen < 2 ^ 32) (id : UInt64) :
    Gateway.writeHeader type payloadLen id.toNat =
      some (be 4 Gateway.MAGIC ++ [type.toByte] ++ be 4 payloadLen ++ be 8 id.toNat) := by
  have hlen : Gateway.writeUInt 4 payloadLen = some (be 4 payloadLen) := by
    rw [Gateway.writeUInt, if_pos ⟨by omega, by norm_num; omega⟩, Int.toNat_natCast]
  have hid : Gateway.writeUInt 8 id.toNat = some (be 8 id.toNat) := by
    have := id.toNat_lt
    rw [Gateway.writeUInt, if_pos ⟨by omega, by norm_num; omega⟩, Int.toNat_natCast]
  simp [Gateway.writeHeader, hlen, hid]

/-- A length prefix that the encoders of the gateway write. -/
theorem writeUInt_two {n : ℕ} (h : n < 2 ^ 16) : Gateway.writeUInt 2 n = some (be 2 n) := by
  rw [Gateway.writeUInt, if_pos ⟨by omega, by norm_num; omega⟩, Int.toNat_natCast]

section Encoders

variable {topic group body : Bytes} {id : UInt64}

/-- `encode_frame`. -/
theorem encodeFrame_eq (type : Broker.MessageType) (type' : MsgType)
    (htype : type.toByte = type'.toByte) (htopic : topic.length < 2 ^ 16)
    (hbody : 2 + topic.length + body.length < 2 ^ 32) :
    Broker.encodeFrame type id topic body = (dataFrame type' id topic body).encode := by
  have hlen : (UInt16.ofNat topic.length).toNat = topic.length := by
    rw [UInt16.toNat_ofNat', Nat.mod_eq_of_lt htopic]
  have hpayload : (2 + (UInt16.ofNat topic.length).toUInt32 + UInt32.ofNat body.length).toNat =
      (be 2 topic.length ++ topic ++ body).length := by
    simp only [UInt32.toNat_add, UInt16.toNat_toUInt32, hlen, UInt32.toNat_ofNat',
      List.length_append, length_be]
    rw [show UInt32.toNat 2 = 2 from rfl]
    omega
  simp only [Broker.encodeFrame, encodeHeader_eq, lengthPrefix_eq, hlen, hpayload, htype, dataFrame,
    Frame.encode, List.append_assoc]

/-- `encode_subscribe_frame`. -/
theorem encodeSubscribeFrame_eq (htopic : topic.length < 2 ^ 16) (hgroup : group.length < 2 ^ 16) :
    Broker.encodeSubscribeFrame topic group id = (subscribeFrame id topic group).encode := by
  have hlen : ∀ bs : Bytes, bs.length < 2 ^ 16 → (UInt16.ofNat bs.length).toNat = bs.length := by
    intro bs hbs
    rw [UInt16.toNat_ofNat', Nat.mod_eq_of_lt hbs]
  have hpayload : (2 + (UInt16.ofNat topic.length).toUInt32 + 2 +
      (UInt16.ofNat group.length).toUInt32).toNat =
      (be 2 topic.length ++ topic ++ be 2 group.length ++ group).length := by
    simp only [UInt32.toNat_add, UInt16.toNat_toUInt32, hlen topic htopic, hlen group hgroup,
      List.length_append, length_be]
    rw [show UInt32.toNat 2 = 2 from rfl]
    omega
  simp only [Broker.encodeSubscribeFrame, encodeHeader_eq, lengthPrefix_eq, hlen topic htopic,
    hlen group hgroup, hpayload, subscribeFrame, Frame.encode, List.append_assoc]
  rfl

end Encoders

section Encoders

variable {topic group : JsString} {body : Bytes} {id : UInt64}

/-- `encodeDataFrame`. -/
theorem encodeDataFrame_eq (type : MsgType) (htopic : topic.toUtf8.length < 2 ^ 16)
    (hbody : 2 + topic.toUtf8.length + body.length < 2 ^ 32) :
    Gateway.encodeDataFrame type topic body id.toNat =
      some (dataFrame type id topic.toUtf8 body).encode := by
  have hlen : (be 2 topic.toUtf8.length ++ (topic.toUtf8 ++ body)).length =
      2 + topic.toUtf8.length + body.length := by
    simp; omega
  simp only [Gateway.encodeDataFrame, writeHeader_eq type hbody id, writeUInt_two htopic,
    Option.bind_eq_bind, Option.bind_some, Option.pure_def, dataFrame, Frame.encode,
    List.append_assoc, hlen]

/-- `encodeSubscribe`. -/
theorem encodeSubscribe_eq (htopic : topic.toUtf8.length < 2 ^ 16)
    (hgroup : group.toUtf8.length < 2 ^ 16) :
    Gateway.encodeSubscribe topic group id.toNat =
      some (subscribeFrame id topic.toUtf8 group.toUtf8).encode := by
  have hlen : (be 2 topic.toUtf8.length ++ (topic.toUtf8 ++
      (be 2 group.toUtf8.length ++ group.toUtf8))).length =
      2 + topic.toUtf8.length + 2 + group.toUtf8.length := by
    simp; omega
  have hheader := writeHeader_eq .subscribe
    (by omega : 2 + topic.toUtf8.length + 2 + group.toUtf8.length < 2 ^ 32) id
  simp only [Gateway.encodeSubscribe, hheader, writeUInt_two htopic, writeUInt_two hgroup,
    Option.bind_eq_bind, Option.bind_some, Option.pure_def, subscribeFrame, Frame.encode,
    List.append_assoc, hlen]

end Encoders

/-! ## Decoders -/

/-- The broker reads the header of a frame back. -/
theorem brokerHeader_encode {f : Frame} (h : f.payload.length < 2 ^ 32) (rest : Bytes) :
    Broker.decodeHeader (f.encode ++ rest) =
      ⟨Broker.frameMagic, f.type, UInt32.ofNat f.payload.length, f.msgId, true⟩ := by
  -- The bytes before each field, and those from it on.
  have h₄ : f.encode ++ rest = be 4 Gateway.MAGIC ++ (f.type :: (be 4 f.payload.length ++
      be 8 f.msgId.toNat ++ f.payload ++ rest)) := by
    simp [Frame.encode]
  have h₅ : f.encode ++ rest = (be 4 Gateway.MAGIC ++ [f.type]) ++ (be 4 f.payload.length ++
      (be 8 f.msgId.toNat ++ f.payload ++ rest)) := by
    simp [Frame.encode]
  have h₉ : f.encode ++ rest = (be 4 Gateway.MAGIC ++ [f.type] ++ be 4 f.payload.length) ++
      (be 8 f.msgId.toNat ++ (f.payload ++ rest)) := by
    simp [Frame.encode]
  have hmagic : Broker.toBe32 (Broker.load32 ((f.encode ++ rest).take 4)) = Broker.frameMagic := by
    apply UInt32.toNat_inj.mp
    rw [h₄, List.take_left' (length_be _ _), Broker.toBe32_load32 (length_be _ _),
      ofBe_be (by decide)]
    rfl
  have htype : ((f.encode ++ rest).drop 4).headD 0 = f.type := by
    rw [h₄, List.drop_left' (length_be _ _)]
    rfl
  have hlen : Broker.toBe32 (Broker.load32 (((f.encode ++ rest).drop 5).take 4)) =
      UInt32.ofNat f.payload.length := by
    apply UInt32.toNat_inj.mp
    rw [h₅, List.drop_left' (by simp), List.take_left' (length_be _ _),
      Broker.toBe32_load32 (length_be _ _), ofBe_be (by simpa using h), UInt32.toNat_ofNat',
      Nat.mod_eq_of_lt h]
  have hid : Broker.toBe64 (Broker.load64 (((f.encode ++ rest).drop 9).take 8)) = f.msgId := by
    apply UInt64.toNat_inj.mp
    rw [h₉, List.drop_left' (by simp), List.take_left' (length_be _ _),
      Broker.toBe64_load64 (length_be _ _), ofBe_be (by simpa using f.msgId.toNat_lt)]
  simp only [Broker.decodeHeader, hmagic, htype, hlen, hid, decide_true]

/-- The payload of a frame, after its header. -/
theorem drop_encode (f : Frame) : f.encode.drop HEADER_SIZE = f.payload :=
  List.drop_left' (by simp [HEADER_SIZE])

/-- `decode_publish` reads a topic and a body back. -/
theorem decodePublish_eq {topic : Bytes} (htopic : topic.length < 2 ^ 16) (body : Bytes) :
    Broker.decodePublish (be 2 topic.length ++ topic ++ body) = ⟨topic, body⟩ := by
  have hlength : (Broker.readLength (be 2 topic.length ++ topic ++ body) 0).toNat =
      topic.length := by
    have h := readLength_append htopic [] (topic ++ body)
    rwa [List.nil_append, List.length_nil, ← List.append_assoc] at h
  unfold Broker.decodePublish
  rw [if_neg (by simp; omega)]
  dsimp only
  rw [hlength, if_neg (by simp)]
  congr 1
  · rw [List.append_assoc, List.drop_left' (length_be _ _), List.take_left]
  · rw [List.drop_left' (by simp)]

/-- `decode_publish` finds a topic exactly in a payload that is a length, as many bytes, and a
body. -/
theorem decodePublish_eq_iff {payload t b : Bytes} :
    Broker.decodePublish payload = ⟨t, b⟩ ∧ t ≠ [] ↔
      payload = be 2 t.length ++ t ++ b ∧ t ≠ [] ∧ t.length < 2 ^ 16 := by
  constructor
  · rintro ⟨hdec, hne⟩
    unfold Broker.decodePublish at hdec
    split_ifs at hdec with hshort
    · exact absurd (congrArg Broker.ParsedPublish.topic hdec).symm hne
    have hlength := @readLength_eq payload 0 (by omega)
    dsimp only at hdec
    split_ifs at hdec with hlen
    · exact absurd (congrArg Broker.ParsedPublish.topic hdec).symm hne
    obtain ⟨htopic, hbody⟩ := Broker.ParsedPublish.mk.inj hdec
    have ht : t.length = (Broker.readLength payload 0).toNat := by
      rw [← htopic, List.length_take, List.length_drop]
      omega
    refine ⟨?_, hne, by rw [ht]; exact UInt16.toNat_lt _⟩
    -- The length field is the first two bytes, and the topic and the body are the rest.
    have hlength_take : be 2 t.length = payload.take 2 := by
      have htwo : (payload.take 2).length = 2 := by simp; omega
      have hdigits := be_ofBe (payload.take 2)
      rwa [htwo, ← List.drop_zero (l := payload), ← hlength, ← ht, List.drop_zero] at hdigits
    have hsplit : payload.drop 2 = t ++ b := by
      rw [← htopic, ← hbody, ← List.drop_drop, List.take_append_drop]
    rw [hlength_take, List.append_assoc, ← hsplit, List.take_append_drop]
  · rintro ⟨rfl, hne, hlt⟩
    exact ⟨decodePublish_eq hlt b, hne⟩

/-- `decode_subscribe` reads a topic and a group back. -/
theorem decodeSubscribe_eq {topic group : Bytes} (htopic : topic.length < 2 ^ 16)
    (hgroup : group.length < 2 ^ 16) (id : UInt64) :
    Broker.decodeSubscribe (subscribeFrame id topic group).payload = ⟨topic, group⟩ := by
  have hfirst : (Broker.readLength (be 2 topic.length ++ topic ++ be 2 group.length ++ group)
      0).toNat = topic.length := by
    have h := readLength_append htopic [] (topic ++ be 2 group.length ++ group)
    rwa [List.nil_append, List.length_nil, ← List.append_assoc, ← List.append_assoc] at h
  have hsecond : (Broker.readLength (be 2 topic.length ++ topic ++ be 2 group.length ++ group)
      (2 + topic.length)).toNat = group.length := by
    have h := readLength_append hgroup (be 2 topic.length ++ topic) group
    rwa [List.length_append, length_be] at h
  unfold Broker.decodeSubscribe subscribeFrame
  dsimp only
  rw [if_neg (by simp; omega), hfirst, if_neg (by simp; omega), hsecond, if_pos (by simp; omega)]
  congr 1
  · rw [List.append_assoc, List.append_assoc, List.drop_left' (length_be _ _), List.take_left]
  · rw [List.drop_left' (by simp; omega), List.take_length]

/-- `decodeEventPayload` reads the string of a topic's bytes, and a body back. -/
theorem decodeEventPayload_dataFrame {topic : Bytes} (htopic : topic.length < 2 ^ 16)
    (type : MsgType) (id : UInt64) (body : Bytes) :
    Gateway.decodeEventPayload (dataFrame type id topic body).payload =
      (JsString.ofUtf8 topic, body) := by
  unfold Gateway.decodeEventPayload dataFrame
  dsimp only
  rw [if_neg (by simp; omega), List.append_assoc, List.take_left' (length_be _ _),
    List.drop_left' (length_be _ _), ofBe_be (by simpa using htopic), List.take_left,
    ← List.append_assoc, List.drop_left' (by simp)]

/-- `decodeEventPayload` reads a topic and a body back. -/
theorem decodeEventPayload_eq {topic : JsString} (hwell : topic.isWellFormed = true)
    (htopic : topic.toUtf8.length < 2 ^ 16) (type : MsgType) (id : UInt64) (body : Bytes) :
    Gateway.decodeEventPayload (dataFrame type id topic.toUtf8 body).payload = (topic, body) := by
  rw [decodeEventPayload_dataFrame htopic, JsString.ofUtf8_toUtf8 hwell]

/-- `encodeSubscribe` throws when the group's length does not fit its field. -/
theorem encodeSubscribe_eq_none {topic group : JsString} (hgroup : 65535 < group.toUtf8.length)
    (id : UInt64) : Gateway.encodeSubscribe topic group id.toNat = none := by
  have hlen : Gateway.writeUInt 2 group.toUtf8.length = none := by
    rw [Gateway.writeUInt, if_neg (by norm_num; omega)]
  simp only [Gateway.encodeSubscribe, hlen, Option.bind_eq_bind, Option.bind_none]
  simp

/-- A frame that `encodeSubscribe` returns has a topic and a group that fit. -/
theorem encodeSubscribe_eq_some {topic group : JsString} {bytes : Bytes} (id : UInt64)
    (h : Gateway.encodeSubscribe topic group id.toNat = some bytes) :
    topic.toUtf8.length < 2 ^ 16 ∧ group.toUtf8.length < 2 ^ 16 ∧
      bytes = (subscribeFrame id topic.toUtf8 group.toUtf8).encode := by
  have hfits : ∀ {n : ℕ} {bytes : Bytes}, Gateway.writeUInt 2 n = some bytes → n < 2 ^ 16 := by
    intro n bytes hn
    unfold Gateway.writeUInt at hn
    split_ifs at hn with hlt
    have := hlt.2
    norm_num at this
    omega
  have hwrite := h
  simp only [Gateway.encodeSubscribe, Option.bind_eq_bind, Option.pure_def,
    Option.bind_eq_some_iff] at hwrite
  obtain ⟨header, -, topicLen, htopic, groupLen, hgroup, -⟩ := hwrite
  have heq : Gateway.encodeSubscribe topic group id.toNat =
      some (subscribeFrame id topic.toUtf8 group.toUtf8).encode :=
    encodeSubscribe_eq (hfits htopic) (hfits hgroup)
  exact ⟨hfits htopic, hfits hgroup, Option.some.inj (h.symm.trans heq)⟩

/-- The broker reads the type of whatever starts with a header back. -/
theorem type_of_writeHeader {type : MsgType} {payloadLen : ℕ} {id : ℤ} {header : Bytes}
    (h : Gateway.writeHeader type payloadLen id = some header) (rest : Bytes) :
    (Broker.decodeHeader (header ++ rest)).type = type.toByte := by
  simp only [Gateway.writeHeader, Option.bind_eq_bind, Option.pure_def,
    Option.bind_eq_some_iff] at h
  obtain ⟨len, -, ident, -, heq⟩ := h
  obtain rfl := Option.some.inj heq
  have hsplit : be 4 Gateway.MAGIC ++ [type.toByte] ++ len ++ ident ++ rest =
      be 4 Gateway.MAGIC ++ (type.toByte :: (len ++ ident ++ rest)) := by
    simp
  simp only [Broker.decodeHeader]
  rw [hsplit, List.drop_left' (length_be _ _)]
  rfl

/-! ## Round trips -/

/-- What goes over the wire, in both directions. The gateway publishes what the broker reads, and
the broker delivers what the gateway reads. Subscriptions and acknowledgements are written alike. A
payload has a topic for the broker exactly when it is a length, as many bytes, and a body. -/
theorem wire_round_trip {topic : JsString} {body : Bytes} (id : UInt64)
    (hwell : topic.isWellFormed = true) (htopic : topic.toUtf8.length ≤ 65535)
    (hbody : 2 + topic.toUtf8.length + body.length < 2 ^ 32) :
    (∃ frame, Gateway.encodeDataFrame .publish topic body id.toNat = some frame ∧
      Broker.decodeHeader frame = ⟨Broker.frameMagic, Broker.MessageType.publish.toByte,
        UInt32.ofNat (frame.length - Broker.headerSize), id, true⟩ ∧
      Broker.decodePublish (frame.drop Broker.headerSize) = ⟨topic.toUtf8, body⟩) ∧
    (∃ frame, Broker.encodeFrame .eventData id topic.toUtf8 body = frame ∧
      Gateway.decodeHeader frame =
        ⟨true, MsgType.eventData.toByte, frame.length - HEADER_SIZE, id⟩ ∧
      Gateway.decodeEventPayload (frame.drop HEADER_SIZE) = (topic, body)) ∧
    (∀ group : JsString, if group.toUtf8.length ≤ 65535 then
        ∃ frame, Gateway.encodeSubscribe topic group id.toNat = some frame ∧
          Broker.encodeSubscribeFrame topic.toUtf8 group.toUtf8 id = frame ∧
          Broker.decodeSubscribe (frame.drop Broker.headerSize) = ⟨topic.toUtf8, group.toUtf8⟩
      else Gateway.encodeSubscribe topic group id.toNat = none) ∧
    (Gateway.encodeAck .ack id.toNat = some (Broker.encodeAckFrame .ack id) ∧
      Gateway.encodeAck .nack id.toNat = some (Broker.encodeAckFrame .nack id)) ∧
    (∀ payload t b : Bytes, Broker.decodePublish payload = ⟨t, b⟩ ∧ t ≠ [] ↔
      payload = be 2 t.length ++ t ++ b ∧ t ≠ [] ∧ t.length < 2 ^ 16) := by
  have hlt : topic.toUtf8.length < 2 ^ 16 := by omega
  -- The lengths of both directions, in terms of the topic and the body.
  have hpayload : ∀ type, (dataFrame type id topic.toUtf8 body).payload.length =
      2 + topic.toUtf8.length + body.length := by
    intro type
    simp [dataFrame]
    omega
  have hfit : ∀ type, (dataFrame type id topic.toUtf8 body).payload.length < 2 ^ 32 := by
    intro type
    rw [hpayload]
    exact hbody
  have hsize : ∀ f : Frame, f.encode.length - HEADER_SIZE = f.payload.length := by
    intro f
    rw [f.length_encode]
    omega
  have hheaderSize : Broker.headerSize = HEADER_SIZE := rfl
  rw [hheaderSize]
  refine ⟨⟨_, encodeDataFrame_eq .publish hlt hbody, ?_, ?_⟩, ⟨_, rfl, ?_, ?_⟩, ?_, ⟨?_, ?_⟩, ?_⟩
  · have h := brokerHeader_encode (hfit .publish) []
    rw [List.append_nil] at h
    rw [h, hsize]
    rfl
  · rw [drop_encode]
    exact decodePublish_eq hlt body
  · have h := Gateway.decodeHeader_encode (hfit .eventData) []
    rw [List.append_nil] at h
    rw [encodeFrame_eq .eventData .eventData rfl hlt hbody, h, hsize]
    rfl
  · rw [encodeFrame_eq .eventData .eventData rfl hlt hbody, drop_encode,
      decodeEventPayload_eq hwell hlt]
  · intro group
    split_ifs with hgroup
    · refine ⟨_, encodeSubscribe_eq hlt (by omega), encodeSubscribeFrame_eq hlt (by omega), ?_⟩
      rw [drop_encode, decodeSubscribe_eq hlt (by omega)]
    · exact encodeSubscribe_eq_none (by omega) id
  · exact (writeHeader_eq .ack (Nat.two_pow_pos 32) id).trans
      (congrArg some (encodeHeader_eq .ack 0 id).symm)
  · exact (writeHeader_eq .nack (Nat.two_pow_pos 32) id).trans
      (congrArg some (encodeHeader_eq .nack 0 id).symm)
  · exact fun payload t b => decodePublish_eq_iff

/-- A PUBLISH frame for topic `t` with an empty object as its body, under the identifier 7. -/
theorem wire_round_trip_empty_object :
    ∃ frame, Gateway.encodeDataFrame .publish (JsString.ofString "t") (ascii "\x7b\x7d")
        (7 : UInt64).toNat = some frame ∧
      Broker.decodeHeader frame = ⟨Broker.frameMagic, Broker.MessageType.publish.toByte,
        UInt32.ofNat (frame.length - Broker.headerSize), 7, true⟩ ∧
      Broker.decodePublish (frame.drop Broker.headerSize) =
        ⟨JsString.toUtf8 (JsString.ofString "t"), ascii "\x7b\x7d"⟩ :=
  (@wire_round_trip (JsString.ofString "t") (ascii "\x7b\x7d") 7 (by decide) (by decide)
    (by decide)).1

end EventQueue.Bridge
