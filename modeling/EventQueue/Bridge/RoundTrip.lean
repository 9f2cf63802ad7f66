import EventQueue.Bridge.Link
import EventQueue.Gateway.ClientOutput
import EventQueue.Services.GatewayClient

/-!
# From one service to another

A service publishes a value; the gateway parses the text and writes the value again for the broker,
which keeps the bytes; the gateway parses them and writes them a third time in an envelope, and a
service parses that. `publish_round_trip` is what comes out: the topic, the message's identifier as
a decimal string, and the value that went in. `answer_round_trip` is the way back of the identifier.

A value that is nowhere infinite comes out as it went in; `null` for the whole body comes out as an
empty object, since `#handleMessage` takes it for a body that is missing.
-/

namespace EventQueue.Bridge

open Broker (Message RawFrame)
open Gateway (Frame MsgType ClientMessage WsServer WsMessage Ws frameCodec)
open JsString (ofString ofUtf8 toUtf8)
open Services (Call Notice rawText onMessage)

/-! ## Texts of the gateway -/

/-- Apart from the envelope, what a service gets of a message of the gateway. -/
def noticesOf : WsMessage → Json → List Notice
  | .event .., msg => [.message msg, .event msg]
  | .status s, msg => [.message msg, .status (some (.string s))]
  | .subscribed .., msg | .error _, msg => [.message msg]

/-- What the gateway writes is taken for what it is. -/
theorem onMessage_raw (m : WsMessage) :
    ∃ msg : Json, onMessage m.raw = some (noticesOf m msg) ∧ msg.value = m.json.value.kept := by
  obtain ⟨msg, hparse, hvalue⟩ := Json.parse_utf8_stringify m.json
  refine ⟨msg, ?_, hvalue⟩
  have hnull : msg.isNull = false := by
    cases msg with
    | null => cases m <;> cases hvalue
    | _ => rfl
  unfold onMessage
  rw [show Json.parse (ofUtf8 m.raw) = some msg from hparse]
  dsimp only
  rw [hnull, if_neg Bool.false_ne_true]
  cases m with
  | event topic msgId body =>
    have htype := Json.string_of_kept hvalue (k := ofString "type") (s := ofString "event") rfl
    rw [htype]
    rfl
  | subscribed topic group =>
    have htype :=
      Json.string_of_kept hvalue (k := ofString "type") (s := ofString "subscribed") rfl
    rw [htype]
    rfl
  | status s =>
    have htype := Json.string_of_kept hvalue (k := ofString "type") (s := ofString "status") rfl
    have hstatus := Json.string_of_kept hvalue (k := ofString "status") (s := s) rfl
    rw [htype, hstatus]
    rfl
  | error message =>
    have htype := Json.string_of_kept hvalue (k := ofString "type") (s := ofString "error") rfl
    rw [htype]
    rfl

/-! ## Texts of the services -/

/-- What is published of a body. -/
def publishedBody (body : Json) : Json :=
  match body.value.kept with
  | .null => .object []
  | _ => body

/-- What the gateway should make of a call. -/
def clientMessage : Call → ClientMessage
  | .subscribe topic group => .subscribe topic group
  | .publish topic body => .publish topic (toUtf8 (publishedBody body).stringify)
  | .ack msgId => (Json.stringToBigInt msgId).elim .throws fun id => .ack (some id)
  | .nack msgId => (Json.stringToBigInt msgId).elim .throws fun id => .nack (some id)

/-- A string or an empty one: as it is. -/
theorem orEmpty_string (s : JsString) : ClientMessage.orEmpty (some (.string s)) = .string s := by
  cases s <;> rfl

/-- What was parsed of a body is written as what is published of it. -/
theorem stringify_orObject {body w : Json} (hw : w.value = body.value.kept) :
    (ClientMessage.orObject (some w)).stringify = (publishedBody body).stringify := by
  have hstringify := Json.stringify_of_kept hw
  unfold publishedBody
  cases hkept : body.value.kept with
  | null =>
    rw [hkept] at hw
    cases w with
    | null => rfl
    | _ => cases hw
  | _ =>
    rw [hkept] at hw
    cases w with
    | null => cases hw
    | _ => exact hstringify

/-- What a service calls is taken for what it is. -/
theorem ofText_rawText (call : Call) :
    ClientMessage.ofText (rawText call.message) = clientMessage call := by
  obtain ⟨msg, hparse, hvalue⟩ := Json.parse_utf8_stringify call.message
  unfold ClientMessage.ofText
  rw [show Json.parse (ofUtf8 (rawText call.message)) = some msg from hparse]
  have hnull : msg.isNull = false := by
    cases msg with
    | null => cases call <;> cases hvalue
    | _ => rfl
  unfold ClientMessage.ofJson
  dsimp only
  rw [hnull, if_neg Bool.false_ne_true]
  cases call with
  | subscribe topic group =>
    have htype :=
      Json.string_of_kept hvalue (k := ofString "type") (s := ofString "subscribe") rfl
    have htopic := Json.string_of_kept hvalue (k := ofString "topic") (s := topic) rfl
    have hgroup := Json.string_of_kept hvalue (k := ofString "group") (s := group) rfl
    simp only [ClientMessage.typeOf, ClientMessage.topicOf, ClientMessage.groupOf, htype, htopic,
      hgroup, orEmpty_string]
    rfl
  | publish topic body =>
    have htype := Json.string_of_kept hvalue (k := ofString "type") (s := ofString "publish") rfl
    have htopic := Json.string_of_kept hvalue (k := ofString "topic") (s := topic) rfl
    have hbody := Json.property_of_kept hvalue (ofString "body")
    have hpublished : (Call.publish topic body).message.property (ofString "body") = some body :=
      rfl
    rw [hpublished, Option.map_some] at hbody
    obtain ⟨w, hw, hkept⟩ := Option.map_eq_some_iff.mp hbody
    simp only [ClientMessage.typeOf, ClientMessage.topicOf, ClientMessage.bodyOf, htype, htopic, hw,
      orEmpty_string, stringify_orObject hkept]
    rfl
  | ack msgId =>
    have htype := Json.string_of_kept hvalue (k := ofString "type") (s := ofString "ack") rfl
    have hid := Json.string_of_kept hvalue (k := ofString "msgId") (s := msgId) rfl
    simp only [ClientMessage.typeOf, ClientMessage.msgIdOf, htype, hid]
    have hidOf : ClientMessage.idOf (some (.string msgId)) =
        (Json.stringToBigInt msgId).map some := rfl
    rw [hidOf]
    simp only [clientMessage]
    cases Json.stringToBigInt msgId <;> rfl
  | nack msgId =>
    have htype := Json.string_of_kept hvalue (k := ofString "type") (s := ofString "nack") rfl
    have hid := Json.string_of_kept hvalue (k := ofString "msgId") (s := msgId) rfl
    simp only [ClientMessage.typeOf, ClientMessage.msgIdOf, htype, hid]
    have hidOf : ClientMessage.idOf (some (.string msgId)) =
        (Json.stringToBigInt msgId).map some := rfl
    rw [hidOf]
    simp only [clientMessage]
    cases Json.stringToBigInt msgId <;> rfl

/-! ## There -/

/-- The body that a subscriber gets of one that was published. -/
def deliveredBody (body : Json) : JsValue := (publishedBody body).value.kept

/-- Which is what is kept of the body, but for `null`. -/
theorem deliveredBody_eq (body : Json) :
    deliveredBody body = match body.value.kept with
      | .null => .object []
      | x => x := by
  unfold deliveredBody publishedBody
  cases h : body.value.kept <;> first | exact h | rfl

/-- A body that was written is parsed again. -/
theorem value_parsedBody (v : Json) :
    (Gateway.parsedBody (toUtf8 v.stringify)).value = v.value.kept := by
  obtain ⟨v', hparse, hvalue⟩ := Json.parse_utf8_stringify v
  rw [Gateway.parsedBody, hparse]
  exact hvalue

/-- What a service gets as the body of an event is what was published. -/
theorem body_of_event {msg body : Json} {topic : JsString} {msgId : UInt64}
    (h : msg.value =
      (WsMessage.event topic msgId (toUtf8 (publishedBody body).stringify)).json.value.kept) :
    (msg.property (ofString "body")).map Json.value = some (deliveredBody body) := by
  have hproperty := Json.property_of_kept h (ofString "body")
  rw [hproperty]
  show some (Gateway.parsedBody (toUtf8 (publishedBody body).stringify)).value.kept = _
  rw [value_parsedBody, Json.kept_kept]
  rfl

/-- A service calls `publish` with a topic and a value that fit a frame. The gateway sends one
frame, which the broker takes for a message to be published. Every message of that topic and that
body, of any identifier and retry count, has a frame of which the gateway dispatches an event whose
text a service gets as one: with the topic as UTF-8 keeps it, the identifier in decimal, and the
value that was published, but for infinite numbers in it, which are `null`, and for a body that is
`null`, which is an empty object. -/
theorem publish_round_trip (topic : JsString) (body : Json) (hne : topic ≠ [])
    (htopic : topic.toUtf8.length < 2 ^ 16)
    (hbody : 2 + topic.toUtf8.length + (toUtf8 (publishedBody body).stringify).length < 2 ^ 32)
    (server : WsServer) (w : Ws) :
    ∃ f : Frame, frameCodec.Valid f ∧
      server.handleMessage w (ClientMessage.ofText (rawText (Call.publish topic body).message)) =
        ⟨server, [f.encode], [], false⟩ ∧
      ∃ payload : Bytes, Command.ofFrame (toRaw f) = .publish 0 topic.toUtf8 payload ∧
        ∀ m : Message, m.topic = topic.toUtf8 → m.body = payload →
          ∃ (fits : FitsFrame m) (topic' : JsString) (msg : Json),
            dispatched (Outgoing.event m fits).frame = some (topic', m.msg_id, payload) ∧
            onMessage (WsMessage.event topic' m.msg_id payload).raw =
              some [.message msg, .event msg] ∧
            msg.property (ofString "topic") = some (.string (ofUtf8 topic.toUtf8)) ∧
            msg.property (ofString "msgId") = some (.string (JsNumber.digits m.msg_id.toNat)) ∧
            (msg.property (ofString "body")).map Json.value = some (deliveredBody body) := by
  have hutf8 := JsString.toUtf8_ne_nil hne
  set payload := toUtf8 (publishedBody body).stringify with hpayload
  refine ⟨dataFrame .publish 0 topic.toUtf8 payload, ?_, ?_, payload, ?_, ?_⟩
  · show (dataFrame .publish 0 topic.toUtf8 payload).payload.length < 2 ^ 32
    simp only [dataFrame, List.length_append, BigEndian.length_be]
    exact hbody
  · have hencode : Gateway.encodeDataFrame .publish topic payload (0 : UInt64).toNat =
        some (dataFrame .publish 0 topic.toUtf8 payload).encode :=
      encodeDataFrame_eq .publish htopic hbody
    rw [ofText_rawText, clientMessage, WsServer.handleMessage, if_neg (by simpa using hne)]
    exact congrArg (server.sendFrame · []) hencode
  · have hdecode := congrArg (Command.ofPublish 0) (decodePublish_eq htopic payload)
    refine hdecode.trans (if_neg ?_)
    simpa using hutf8
  · intro m hmtopic hmbody
    have fits : FitsFrame m := by
      rw [FitsFrame, hmtopic, hmbody]
      exact ⟨htopic, hbody⟩
    obtain ⟨msg, hmsg, hvalue⟩ :=
      onMessage_raw (.event (ofUtf8 topic.toUtf8) m.msg_id payload)
    refine ⟨fits, ofUtf8 topic.toUtf8, msg, ?_, hmsg, ?_, ?_, ?_⟩
    · rw [dispatched_frame, Outgoing.content, hmtopic, hmbody]
    · exact Json.string_of_kept hvalue (k := ofString "topic") rfl
    · exact Json.string_of_kept hvalue (k := ofString "msgId") rfl
    · exact body_of_event hvalue

/-- A list in which a number is infinite, on a topic with a lone surrogate. -/
theorem publish_round_trip_infinity :
    ∃ (payload : Bytes) (msg : Json),
      onMessage (WsMessage.event (ofUtf8 (toUtf8 [0x74, 0xD800])) 7 payload).raw =
        some [.message msg, .event msg] ∧
      msg.property (ofString "topic") = some (.string (ofUtf8 (toUtf8 [0x74, 0xD800]))) ∧
      (msg.property (ofString "body")).map Json.value =
        some (.array [.number (.finite 1), .null]) := by
  obtain ⟨-, -, -, payload, -, hmessages⟩ := publish_round_trip [0x74, 0xD800]
    (.array [.number false 1 0, .number false 1 400]) (by decide) (by decide +kernel)
    (by decide +kernel) WsServer.create 0
  obtain ⟨_, topic, msg, hdispatched, hmsg, htopic, -, hbody⟩ :=
    hmessages ⟨7, toUtf8 [0x74, 0xD800], payload, 0, 0⟩ rfl rfl
  rw [dispatched_frame] at hdispatched
  obtain rfl : ofUtf8 (toUtf8 [0x74, 0xD800]) = topic :=
    congrArg Prod.fst (Option.some.inj hdispatched)
  refine ⟨payload, msg, hmsg, htopic, hbody.trans ?_⟩
  have hone : JsNumber.ofDecimal false 1 0 = .finite 1 := by decide +kernel
  have hinfinity : JsNumber.ofDecimal false 1 400 = .infinity false := by decide +kernel
  rw [deliveredBody_eq]
  simp only [Json.value, Json.values, JsValue.kept, JsValue.keptElems, hone, hinfinity]

/-! ## And back -/

/-- The frame of a request that is encoded is sent. -/
theorem sendFrame_request {r : Request} (h : r.encode.isSome = true) (server : WsServer) :
    ∃ f : Frame, frameCodec.Valid f ∧
      server.sendFrame r.encode [] = ⟨server, [f.encode], [], false⟩ ∧
      Command.ofFrame (toRaw f) = r.command := by
  obtain ⟨bytes, hbytes⟩ := Option.isSome_iff_exists.mp h
  obtain ⟨f, hvalid, rfl, hcommand⟩ := Request.exists_frame hbytes
  refine ⟨f, hvalid, ?_, hcommand⟩
  rw [hbytes]
  rfl

/-- An ACK with an identifier's digits is the broker's ACK with the identifier. -/
theorem exists_ack (id : UInt64) (server : WsServer) (w : Ws) :
    ∃ f : Frame, frameCodec.Valid f ∧
      server.handleMessage w
        (ClientMessage.ofText (rawText (Call.ack (JsNumber.digits id.toNat)).message)) =
          ⟨server, [f.encode], [], false⟩ ∧
      Command.ofFrame (toRaw f) = .ack id := by
  have hencoded : (Gateway.encodeAck .ack id.toNat).isSome = true :=
    Gateway.encodeAck_isSome.mpr ⟨Int.natCast_nonneg _, by exact_mod_cast id.toNat_lt⟩
  obtain ⟨f, hf, hsent, hcommand⟩ := sendFrame_request (r := .ack id.toNat) hencoded server
  simp only [Request.command, Int.toNat_natCast, UInt64.ofNat_toNat] at hcommand
  refine ⟨f, hf, ?_, hcommand⟩
  rw [ofText_rawText, clientMessage, Json.stringToBigInt_digits]
  exact hsent

/-- So is a NACK. -/
theorem exists_nack (id : UInt64) (server : WsServer) (w : Ws) :
    ∃ f : Frame, frameCodec.Valid f ∧
      server.handleMessage w
        (ClientMessage.ofText (rawText (Call.nack (JsNumber.digits id.toNat)).message)) =
          ⟨server, [f.encode], [], false⟩ ∧
      Command.ofFrame (toRaw f) = .nack id := by
  have hencoded : (Gateway.encodeAck .nack id.toNat).isSome = true :=
    Gateway.encodeAck_isSome.mpr ⟨Int.natCast_nonneg _, by exact_mod_cast id.toNat_lt⟩
  obtain ⟨f, hf, hsent, hcommand⟩ := sendFrame_request (r := .nack id.toNat) hencoded server
  simp only [Request.command, Int.toNat_natCast, UInt64.ofNat_toNat] at hcommand
  refine ⟨f, hf, ?_, hcommand⟩
  rw [ofText_rawText, clientMessage, Json.stringToBigInt_digits]
  exact hsent

/-- The broker sends a message whose lengths fit. The gateway dispatches an event whose text a
service gets as one, with a string for the identifier; and when the service answers with what it
got, the gateway sends one frame, which the broker takes for the answer to this message, whichever
of its 64 bits are set. -/
theorem answer_round_trip (m : Message) (fits : FitsFrame m) (server : WsServer) (w : Ws) :
    ∃ (topic : JsString) (msg : Json) (msgId : JsString),
      dispatched (Outgoing.event m fits).frame = some (topic, m.msg_id, m.body) ∧
      onMessage (WsMessage.event topic m.msg_id m.body).raw = some [.message msg, .event msg] ∧
      msg.property (ofString "msgId") = some (.string msgId) ∧
      (∃ f : Frame, frameCodec.Valid f ∧
        server.handleMessage w (ClientMessage.ofText (rawText (Call.ack msgId).message)) =
          ⟨server, [f.encode], [], false⟩ ∧
        Command.ofFrame (toRaw f) = .ack m.msg_id) ∧
      ∃ f : Frame, frameCodec.Valid f ∧
        server.handleMessage w (ClientMessage.ofText (rawText (Call.nack msgId).message)) =
          ⟨server, [f.encode], [], false⟩ ∧
        Command.ofFrame (toRaw f) = .nack m.msg_id := by
  obtain ⟨msg, hmsg, hvalue⟩ := onMessage_raw (.event (ofUtf8 m.topic) m.msg_id m.body)
  refine ⟨ofUtf8 m.topic, msg, JsNumber.digits m.msg_id.toNat, dispatched_frame _, hmsg, ?_,
    exists_ack m.msg_id server w, exists_nack m.msg_id server w⟩
  exact Json.string_of_kept hvalue (k := ofString "msgId") rfl

/-- An identifier that is no number of the language. -/
theorem answer_round_trip_maximum :
    ∃ (msg : Json) (msgId : JsString),
      onMessage (WsMessage.event (ofString "t") (0xFFFFFFFFFFFFFFFF) (ascii "1")).raw =
        some [.message msg, .event msg] ∧
      msg.property (ofString "msgId") = some (.string msgId) ∧
      ∃ f : Frame, WsServer.create.handleMessage 0
          (ClientMessage.ofText (rawText (Call.ack msgId).message)) =
            ⟨WsServer.create, [f.encode], [], false⟩ ∧
        Command.ofFrame (toRaw f) = .ack (0xFFFFFFFFFFFFFFFF) := by
  obtain ⟨topic, msg, msgId, hdispatched, hmsg, hid, ⟨f, -, hsent, hcommand⟩, -⟩ :=
    answer_round_trip ⟨0xFFFFFFFFFFFFFFFF, ascii "t", ascii "1", 0, 0⟩ (by decide) WsServer.create 0
  rw [dispatched_frame] at hdispatched
  have htopic : ofString "t" = topic :=
    (show ofString "t" = ofUtf8 (ascii "t") by decide).trans
      (congrArg Prod.fst (Option.some.inj hdispatched))
  rw [htopic]
  exact ⟨msg, msgId, hmsg, hid, f, hsent, hcommand⟩

end EventQueue.Bridge
