import EventQueue.Broker.Message
import EventQueue.Lib.BigEndian

/-!
# The wire protocol of the broker

The encoders and decoders of `broker/include/Protocol.hpp`, on a little-endian host. The source
writes a word in network order by swapping its bytes (`to_be32`, `to_be64`) and copying the memory
of the result, so `mem32` and `mem64` are the memory images and `toBe32` and `toBe64` the swaps,
bit for bit. `write_be32_eq` and its siblings say that together they write the big-endian digits,
and `toBe32_load32` and its siblings that a word copied from memory and swapped is the number that
the bytes denote.
-/

namespace EventQueue.Broker

open BigEndian (be ofBe length_be ofBe_be ofBe_be_mod be_ofBe ofBe_lt)

/-! ## Words in memory -/

/-- `to_be32`: the bytes of a 32-bit word in the opposite order. -/
def toBe32 (v : UInt32) : UInt32 :=
  ((v &&& 0xFF000000) >>> 24) ||| ((v &&& 0x00FF0000) >>> 8) |||
    ((v &&& 0x0000FF00) <<< 8) ||| ((v &&& 0x000000FF) <<< 24)

/-- `to_be64`: the two halves swapped, each with its bytes in the opposite order. -/
def toBe64 (v : UInt64) : UInt64 :=
  ((toBe32 (v &&& 0xFFFFFFFF).toUInt32).toUInt64 <<< 32) ||| (toBe32 (v >>> 32).toUInt32).toUInt64

/-- The swap of `write_be16` and `read_be16`. -/
def toBe16 (v : UInt16) : UInt16 := (v >>> 8) ||| (v <<< 8)

/-- The memory of a 16-bit word, lowest address first. -/
def mem16 (v : UInt16) : Bytes := [v.toUInt8, (v >>> 8).toUInt8]

/-- The memory of a 32-bit word, lowest address first. -/
def mem32 (v : UInt32) : Bytes :=
  [v.toUInt8, (v >>> 8).toUInt8, (v >>> 16).toUInt8, (v >>> 24).toUInt8]

/-- The memory of a 64-bit word, lowest address first. -/
def mem64 (v : UInt64) : Bytes := mem32 v.toUInt32 ++ mem32 (v >>> 32).toUInt32

/-- The 16-bit word whose memory starts with the given bytes; the rest of it is zero. -/
def load16 (bs : Bytes) : UInt16 := UInt16.ofNat (ofBe bs.reverse)

/-- The 32-bit word whose memory starts with the given bytes; the rest of it is zero. -/
def load32 (bs : Bytes) : UInt32 := UInt32.ofNat (ofBe bs.reverse)

/-- The 64-bit word whose memory starts with the given bytes; the rest of it is zero. -/
def load64 (bs : Bytes) : UInt64 := UInt64.ofNat (ofBe bs.reverse)

/-- The memory of a 16-bit word is its digits, lowest first. -/
theorem mem16_eq (v : UInt16) : mem16 v = (be 2 v.toNat).reverse := by
  simp only [mem16, be, List.nil_append, List.reverse_cons, List.reverse_nil,
    List.cons_append, List.cons.injEq, and_true]
  constructor <;> apply UInt8.toNat_inj.mp <;>
    simp [UInt16.toNat_shiftRight, Nat.shiftRight_eq_div_pow]

/-- The memory of a 32-bit word is its digits, lowest first. -/
theorem mem32_eq (v : UInt32) : mem32 v = (be 4 v.toNat).reverse := by
  simp only [mem32, be, List.nil_append, List.reverse_cons, List.reverse_nil,
    List.cons_append, List.cons.injEq, and_true]
  refine ⟨?_, ?_, ?_, ?_⟩ <;> apply UInt8.toNat_inj.mp <;>
    simp [UInt32.toNat_shiftRight, Nat.shiftRight_eq_div_pow, Nat.div_div_eq_div_mul]

/-- The memory of a 64-bit word is its digits, lowest first. -/
theorem mem64_eq (v : UInt64) : mem64 v = (be 8 v.toNat).reverse := by
  simp only [mem64, mem32_eq, be, List.nil_append, List.reverse_cons,
    List.reverse_nil, List.cons_append, List.cons.injEq, and_true]
  refine ⟨?_, ?_, ?_, ?_, ?_, ?_, ?_, ?_⟩ <;> apply UInt8.toNat_inj.mp <;>
    simp [UInt64.toNat_shiftRight, Nat.shiftRight_eq_div_pow, Nat.div_div_eq_div_mul] <;> omega

/-- Swapping the bytes of a 16-bit word reverses its memory. -/
theorem mem16_toBe16 (v : UInt16) : mem16 (toBe16 v) = (mem16 v).reverse := by
  simp only [mem16, toBe16, List.reverse_cons, List.reverse_nil, List.nil_append,
    List.cons_append, List.cons.injEq, and_true]
  constructor <;> apply UInt8.toBitVec_inj.mp <;> apply BitVec.eq_of_getLsbD_eq <;> intro i hi
  · interval_cases i <;> simp
  · interval_cases i <;> simp

/-- Swapping the bytes of a 32-bit word reverses its memory. -/
theorem mem32_toBe32 (v : UInt32) : mem32 (toBe32 v) = (mem32 v).reverse := by
  simp only [mem32, toBe32, List.reverse_cons, List.reverse_nil, List.nil_append,
    List.cons_append, List.cons.injEq, and_true]
  refine ⟨?_, ?_, ?_, ?_⟩ <;> apply UInt8.toBitVec_inj.mp <;> apply BitVec.eq_of_getLsbD_eq <;>
    (intro i hi; simp; interval_cases i <;> simp)

/-- The memory of a 64-bit word is that of its two halves, low half first. -/
theorem mem64_halves (hi lo : UInt32) :
    mem64 ((hi.toUInt64 <<< 32) ||| lo.toUInt64) = mem32 lo ++ mem32 hi := by
  have hlo : ((hi.toUInt64 <<< 32) ||| lo.toUInt64).toUInt32 = lo := by
    apply UInt32.toBitVec_inj.mp
    apply BitVec.eq_of_getLsbD_eq
    intro i hi'
    simp [hi']
  have hhi : (((hi.toUInt64 <<< 32) ||| lo.toUInt64) >>> 32).toUInt32 = hi := by
    apply UInt32.toBitVec_inj.mp
    apply BitVec.eq_of_getLsbD_eq
    intro i hi'
    have h64 : 32 + i < 64 := by omega
    simp [h64, hi', show i < 64 by omega]
  rw [mem64, hlo, hhi]

/-- Swapping the bytes of a 64-bit word reverses its memory. -/
theorem mem64_toBe64 (v : UInt64) : mem64 (toBe64 v) = (mem64 v).reverse := by
  have hlow : (v &&& 0xFFFFFFFF).toUInt32 = v.toUInt32 := by
    apply UInt32.toNat_inj.mp
    rw [UInt64.toNat_toUInt32, UInt64.toNat_toUInt32, UInt64.toNat_and,
      show (0xFFFFFFFF : UInt64).toNat = 2 ^ 32 - 1 from rfl, Nat.and_two_pow_sub_one_eq_mod,
      Nat.mod_mod]
  rw [toBe64, mem64_halves, mem32_toBe32, mem32_toBe32, hlow, mem64, List.reverse_append]

/-! ## Words on the wire -/

/-- The bytes that the source writes for a 16-bit word are its big-endian digits. -/
theorem write_be16_eq (v : UInt16) : mem16 (toBe16 v) = be 2 v.toNat := by
  rw [mem16_toBe16, mem16_eq, List.reverse_reverse]

/-- The bytes that the source writes for a 32-bit word are its big-endian digits. -/
theorem write_be32_eq (v : UInt32) : mem32 (toBe32 v) = be 4 v.toNat := by
  rw [mem32_toBe32, mem32_eq, List.reverse_reverse]

/-- The bytes that the source writes for a 64-bit word are its big-endian digits. -/
theorem write_be64_eq (v : UInt64) : mem64 (toBe64 v) = be 8 v.toNat := by
  rw [mem64_toBe64, mem64_eq, List.reverse_reverse]

/-- A 16-bit word copied from two bytes and swapped is the number that they denote. -/
theorem toBe16_load16 {bs : Bytes} (h : bs.length = 2) : (toBe16 (load16 bs)).toNat = ofBe bs := by
  have hlt := ofBe_lt bs.reverse
  have hload : mem16 (load16 bs) = bs := by
    rw [mem16_eq, load16, UInt16.toNat_ofNat', Nat.mod_eq_of_lt (by simpa [h] using hlt),
      ← h, ← List.length_reverse, be_ofBe, List.reverse_reverse]
  have hdigits : be 2 (toBe16 (load16 bs)).toNat = bs.reverse.reverse := by
    rw [← List.reverse_eq_iff, ← mem16_eq, mem16_toBe16, hload]
  rw [List.reverse_reverse] at hdigits
  exact (ofBe_be (UInt16.toNat_lt _)).symm.trans (congrArg ofBe hdigits)

/-- A 32-bit word copied from four bytes and swapped is the number that they denote. -/
theorem toBe32_load32 {bs : Bytes} (h : bs.length = 4) : (toBe32 (load32 bs)).toNat = ofBe bs := by
  have hlt := ofBe_lt bs.reverse
  have hload : mem32 (load32 bs) = bs := by
    rw [mem32_eq, load32, UInt32.toNat_ofNat', Nat.mod_eq_of_lt (by simpa [h] using hlt),
      ← h, ← List.length_reverse, be_ofBe, List.reverse_reverse]
  have hdigits : be 4 (toBe32 (load32 bs)).toNat = bs.reverse.reverse := by
    rw [← List.reverse_eq_iff, ← mem32_eq, mem32_toBe32, hload]
  rw [List.reverse_reverse] at hdigits
  exact (ofBe_be (UInt32.toNat_lt _)).symm.trans (congrArg ofBe hdigits)

/-- A 64-bit word copied from eight bytes and swapped is the number that they denote. -/
theorem toBe64_load64 {bs : Bytes} (h : bs.length = 8) : (toBe64 (load64 bs)).toNat = ofBe bs := by
  have hlt := ofBe_lt bs.reverse
  have hload : mem64 (load64 bs) = bs := by
    rw [mem64_eq, load64, UInt64.toNat_ofNat', Nat.mod_eq_of_lt (by simpa [h] using hlt),
      ← h, ← List.length_reverse, be_ofBe, List.reverse_reverse]
  have hdigits : be 8 (toBe64 (load64 bs)).toNat = bs.reverse.reverse := by
    rw [← List.reverse_eq_iff, ← mem64_eq, mem64_toBe64, hload]
  rw [List.reverse_reverse] at hdigits
  exact (ofBe_be (UInt64.toNat_lt _)).symm.trans (congrArg ofBe hdigits)

/-! ## Frames -/

/-- The magic number at the start of a frame. -/
def frameMagic : UInt32 := 0xDEADBEEF

/-- The size of a header: magic, type, payload length, and identifier. -/
def headerSize : ℕ := 17

/-- The header that the three encoders write. -/
def encodeHeader (type : MessageType) (payload_len : UInt32) (msg_id : UInt64) : Bytes :=
  mem32 (toBe32 frameMagic) ++ [type.toByte] ++ mem32 (toBe32 payload_len) ++
    mem64 (toBe64 msg_id)

/-- The length prefix of a topic or a group: its two bytes, high first. -/
def lengthPrefix (len : UInt16) : Bytes := [(len >>> 8).toUInt8, (len &&& 0xFF).toUInt8]

/-- `encode_frame`: a header, then the topic with its length, then the body. The topic's length is
narrowed to 16 bits and the payload's to 32; the bytes are all written. -/
def encodeFrame (type : MessageType) (msg_id : UInt64) (topic body : Bytes) : Bytes :=
  let topic_len := UInt16.ofNat topic.length
  let payload_len := 2 + topic_len.toUInt32 + UInt32.ofNat body.length
  encodeHeader type payload_len msg_id ++ lengthPrefix topic_len ++ topic ++ body

/-- `encode_subscribe_frame`: a header, then the topic and the group, each with its length. -/
def encodeSubscribeFrame (topic group : Bytes) (msg_id : UInt64) : Bytes :=
  let topic_len := UInt16.ofNat topic.length
  let group_len := UInt16.ofNat group.length
  let payload_len := 2 + topic_len.toUInt32 + 2 + group_len.toUInt32
  encodeHeader .subscribe payload_len msg_id ++ lengthPrefix topic_len ++ topic ++
    lengthPrefix group_len ++ group

/-- `encode_ack_frame`: a header without a payload. -/
def encodeAckFrame (type : MessageType) (msg_id : UInt64) : Bytes := encodeHeader type 0 msg_id

/-- A decoded header. -/
structure ParsedHeader where
  /-- The magic number. -/
  magic : UInt32
  /-- The type byte; the source casts it to `MessageType` without a check. -/
  type : UInt8
  /-- The length of the payload that follows. -/
  payload_len : UInt32
  /-- The identifier. -/
  msg_id : UInt64
  /-- Whether the magic number is `FRAME_MAGIC`. -/
  valid : Bool
deriving DecidableEq, Repr

/-- `decode_header`, on data of at least `HEADER_SIZE` bytes. -/
def decodeHeader (data : Bytes) : ParsedHeader :=
  let magic := toBe32 (load32 (data.take 4))
  { magic := magic
    type := (data.drop 4).headD 0
    payload_len := toBe32 (load32 ((data.drop 5).take 4))
    msg_id := toBe64 (load64 ((data.drop 9).take 8))
    valid := magic = frameMagic }

/-- The 16-bit length at an offset of a payload, high byte first. -/
def readLength (payload : Bytes) (offset : ℕ) : UInt16 :=
  ((payload.getD offset 0).toUInt16 <<< 8) ||| (payload.getD (offset + 1) 0).toUInt16

/-- A decoded PUBLISH payload. -/
structure ParsedPublish where
  /-- The topic; empty when the payload is malformed. -/
  topic : Bytes
  /-- The body. -/
  body : Bytes
deriving DecidableEq, Repr

/-- `decode_publish`: the topic by its length, and the rest as the body. -/
def decodePublish (payload : Bytes) : ParsedPublish :=
  if payload.length < 2 then ⟨[], []⟩
  else
    let topic_len := (readLength payload 0).toNat
    if payload.length < 2 + topic_len then ⟨[], []⟩
    else ⟨(payload.drop 2).take topic_len, payload.drop (2 + topic_len)⟩

/-- A decoded SUBSCRIBE payload. -/
structure ParsedSubscribe where
  /-- The topic pattern; empty when the payload is malformed. -/
  topic : Bytes
  /-- The group; empty for an independent subscriber. -/
  group : Bytes
deriving DecidableEq, Repr

/-- `decode_subscribe`: the topic by its length, then the group by its own, which is left empty
when it does not fit in the payload. -/
def decodeSubscribe (payload : Bytes) : ParsedSubscribe :=
  if payload.length < 2 then ⟨[], []⟩
  else
    let topic_len := (readLength payload 0).toNat
    if payload.length < 2 + topic_len + 2 then ⟨[], []⟩
    else
      let group_len := (readLength payload (2 + topic_len)).toNat
      let g_offset := 2 + topic_len + 2
      ⟨(payload.drop 2).take topic_len,
        if g_offset + group_len ≤ payload.length then (payload.drop g_offset).take group_len
        else []⟩

/-- A decoded topic's length fits in its length field. -/
theorem length_decodePublish_topic_lt (payload : Bytes) :
    (decodePublish payload).topic.length < 2 ^ 16 := by
  have h := (readLength payload 0).toNat_lt
  unfold decodePublish
  split_ifs
  · simp
  · dsimp only
    split_ifs
    · simp
    · simp only [List.length_take, List.length_drop]
      omega

/-- A decoded body is no longer than its payload. -/
theorem length_decodePublish_body_le (payload : Bytes) :
    (decodePublish payload).body.length ≤ payload.length := by
  unfold decodePublish
  split_ifs
  · simp
  · dsimp only
    split_ifs <;> simp

end EventQueue.Broker
