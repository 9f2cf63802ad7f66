import Mathlib.Tactic.Linarith

/-!
# The broker's messages

The types of `broker/include/Message.hpp`. A topic is a `std::string`, which is a byte string, and
so is a body; both are lists of bytes here. `msg_id` is a 64-bit word, and the counter that hands
out identifiers wraps as the source's does.
-/

namespace EventQueue

/-- The bytes of a `std::string` or of a `std::vector<uint8_t>`. -/
abbrev Bytes := List UInt8

/-- The bytes of a string literal of the source, all of whose characters are ASCII. -/
def ascii (s : String) : Bytes := s.toList.map fun c => c.toNat.toUInt8

namespace Broker

/-- A client's identifier, which is its socket descriptor. -/
abbrev ClientId := ℤ

/-- The frame types of the wire protocol. -/
inductive MessageType
  | publish | subscribe | ack | nack | heartbeat | eventData | errorResp
deriving DecidableEq, Repr

/-- The frame type that a type byte stands for; `none` is the `default` branch of `on_frame`. -/
def MessageType.ofByte (b : UInt8) : Option MessageType :=
  if b = 0x01 then some .publish
  else if b = 0x02 then some .subscribe
  else if b = 0x03 then some .ack
  else if b = 0x04 then some .nack
  else if b = 0x05 then some .heartbeat
  else if b = 0x06 then some .eventData
  else if b = 0x07 then some .errorResp
  else none

/-- The type byte of a frame. -/
def MessageType.toByte : MessageType → UInt8
  | .publish => 0x01
  | .subscribe => 0x02
  | .ack => 0x03
  | .nack => 0x04
  | .heartbeat => 0x05
  | .eventData => 0x06
  | .errorResp => 0x07

/-- A type byte that is written is read back. -/
theorem MessageType.ofByte_toByte (t : MessageType) : ofByte t.toByte = some t := by
  cases t <;> decide

/-- What flows through the queues and the router. `origin` is a ghost: the serial number of the
PUBLISH frame, replayed record, or audit event that this copy descends from. The program has no such
field, and no definition of the model reads it. -/
structure Message where
  /-- The identifier on the wire, in the log, and in `in_flight_`. -/
  msg_id : UInt64
  /-- The topic. -/
  topic : Bytes
  /-- The raw body. -/
  body : Bytes
  /-- The number of failed deliveries that this copy descends from. -/
  retry_count : ℤ
  /-- Ghost: where this copy comes from. -/
  origin : ℕ
deriving DecidableEq, Repr

/-- The topic prefix of a dead letter. -/
def dlqPrefix : Bytes := ascii "$DLQ."

/-- The topic of an audit event. -/
def sysDlqTopic : Bytes := ascii "$SYS.dlq"

/-- The prefix is not empty, so that a dead letter's topic is never the topic that it came from. -/
theorem length_dlqPrefix : dlqPrefix.length = 5 := by decide

end Broker

end EventQueue
