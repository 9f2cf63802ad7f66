import EventQueue.Gateway.WsServer
import EventQueue.Lib.JsValue

/-!
# What a client's text does to the gateway

`#handleMessage` of `gateway/src/wsServer.js` from the bytes that a client sent. A text that
`JSON.parse` rejects is answered, but nothing else is caught: the read of `msg.type` throws on
`null`, the conversions throw on some values, and the encoders on what does not fit its field. An
exception ends the process, and one from `encodeSubscribe` comes when the subscription has already
been tracked.

`handles_iff` says exactly which texts are handled.
-/

namespace EventQueue.Gateway

open BigEndian (length_be)
open JsString (ofUtf8 toUtf8)

/-! ## From a text to a message -/

namespace ClientMessage

/-- `x === s`, for a string `s`. -/
def isString (x : Option Json) (s : JsString) : Bool :=
  match x with
  | some (.string t) => t = s
  | _ => false

/-- `x || ''`. -/
def orEmpty (x : Option Json) : Json :=
  match x with
  | some v => if v.truthy then v else .string []
  | none => .string []

/-- `x ?? {}`. -/
def orObject (x : Option Json) : Json :=
  match x with
  | none | some .null => .object []
  | some v => v

/-- `${x}`. -/
def template (x : Option Json) : Option JsString :=
  match x with
  | some v => v.toStr
  | none => some (JsString.ofString "undefined")

/-- The identifier of an answer: `none` in the option when `x == null`, and else `BigInt(x)`. -/
def idOf (x : Option Json) : Option (Option ℤ) :=
  match x with
  | none | some .null => some none
  | some v => v.toBigInt.map some

/-- `msg.type`. -/
def typeOf (msg : Json) : Option Json := msg.property (JsString.ofString "type")

/-- `msg.topic || ''`. -/
def topicOf (msg : Json) : Json := orEmpty (msg.property (JsString.ofString "topic"))

/-- `msg.group || ''`. -/
def groupOf (msg : Json) : Json := orEmpty (msg.property (JsString.ofString "group"))

/-- `JSON.stringify(msg.body ?? {})`, as bytes. -/
def bodyOf (msg : Json) : Bytes :=
  toUtf8 (orObject (msg.property (JsString.ofString "body"))).stringify

/-- `msg.msgId`. -/
def msgIdOf (msg : Json) : Option Json := msg.property (JsString.ofString "msgId")

/-- The `switch` of `#handleMessage`, up to the calls of `#subscribe` and of the encoders. -/
def ofJson (msg : Json) : ClientMessage :=
  if msg.isNull then .throws
  else if isString (typeOf msg) (JsString.ofString "subscribe") then
    match (topicOf msg).toStr, (groupOf msg).toStr with
    | some topic, some group => .subscribe topic group
    | _, _ => .throws
  else if isString (typeOf msg) (JsString.ofString "publish") then
    match (topicOf msg).toStr with
    | some topic => .publish topic (bodyOf msg)
    | none => .throws
  else if isString (typeOf msg) (JsString.ofString "ack") then
    match idOf (msgIdOf msg) with
    | some id => .ack id
    | none => .throws
  else if isString (typeOf msg) (JsString.ofString "nack") then
    match idOf (msgIdOf msg) with
    | some id => .nack id
    | none => .throws
  else
    match template (typeOf msg) with
    | some type => .unknown type
    | none => .throws

/-- What the bytes from a client say. -/
def ofText (raw : Bytes) : ClientMessage :=
  match Json.parse (ofUtf8 raw) with
  | none => .invalid
  | some msg => ofJson msg

example : ofText (ascii "\x7b\"type\": \"ack\", \"msgId\": \"0x10\"\x7d") = .ack (some 16) ∧
    ofText (ascii "\x7b\"type\": \"subscribe\", \"topic\": [\"a\", 1]\x7d") =
      .subscribe (JsString.ofString "a,1") [] ∧
    ofText (ascii "[]") = .unknown (JsString.ofString "undefined") := by decide +kernel

end ClientMessage

/-! ## The encoders -/

section Encoders

variable {topic group : JsString} {body frame : Bytes}

/-- A number is written where it fits. -/
theorem writeUInt_isSome {k : ℕ} {n : ℤ} : (writeUInt k n).isSome = true ↔ 0 ≤ n ∧ n < 256 ^ k := by
  unfold writeUInt
  split_ifs with h
  · exact iff_of_true rfl h
  · exact iff_of_false Bool.false_ne_true h

/-- A length is written where it fits. -/
theorem writeUInt_natCast_isSome {k n : ℕ} : (writeUInt k n).isSome = true ↔ n < 256 ^ k := by
  rw [writeUInt_isSome, and_iff_right (Int.natCast_nonneg n)]
  exact_mod_cast Iff.rfl

/-- A header is written where the payload's length and the identifier fit. -/
theorem writeHeader_isSome (type : MsgType) (payloadLen : ℕ) (msgId : ℤ) :
    (writeHeader type payloadLen msgId).isSome = true ↔
      payloadLen < 2 ^ 32 ∧ 0 ≤ msgId ∧ msgId < 2 ^ 64 := by
  have hlen : (2 : ℕ) ^ 32 = 256 ^ 4 := by norm_num
  have hid : (2 : ℤ) ^ 64 = 256 ^ 8 := by norm_num
  rw [hlen, hid, ← writeUInt_natCast_isSome, ← writeUInt_isSome]
  unfold writeHeader
  cases writeUInt 4 payloadLen <;> cases writeUInt 8 msgId <;> simp

/-- An answer is encoded where its identifier fits. -/
theorem encodeAck_isSome {type : MsgType} {msgId : ℤ} :
    (encodeAck type msgId).isSome = true ↔ 0 ≤ msgId ∧ msgId < 2 ^ 64 := by
  rw [encodeAck, writeHeader_isSome, and_iff_right (by decide)]

/-- A publication is encoded where the topic's and the payload's lengths fit. -/
theorem encodeDataFrame_isSome (type : MsgType) :
    (encodeDataFrame type topic body 0).isSome = true ↔
      (toUtf8 topic).length < 2 ^ 16 ∧ 2 + (toUtf8 topic).length + body.length < 2 ^ 32 := by
  have hheader := writeHeader_isSome type (2 + (toUtf8 topic).length + body.length) 0
  have htopic := writeUInt_natCast_isSome (k := 2) (n := (toUtf8 topic).length)
  rw [and_iff_left (by decide)] at hheader
  have htwo : (2 : ℕ) ^ 16 = 256 ^ 2 := by norm_num
  rw [htwo, ← htopic, ← hheader, and_comm]
  unfold encodeDataFrame
  dsimp only
  cases writeHeader type (2 + (toUtf8 topic).length + body.length) 0 <;>
    cases writeUInt 2 (toUtf8 topic).length <;> simp

/-- A subscription is encoded where the topic's and the group's lengths fit. -/
theorem encodeSubscribe_isSome :
    (encodeSubscribe topic group 0).isSome = true ↔
      (toUtf8 topic).length < 2 ^ 16 ∧ (toUtf8 group).length < 2 ^ 16 := by
  have hheader : (toUtf8 topic).length < 2 ^ 16 ∧ (toUtf8 group).length < 2 ^ 16 →
      (writeHeader .subscribe (2 + (toUtf8 topic).length + 2 + (toUtf8 group).length) 0).isSome =
        true := fun h => by
    rw [writeHeader_isSome]
    omega
  have htopic := writeUInt_natCast_isSome (k := 2) (n := (toUtf8 topic).length)
  have hgroup := writeUInt_natCast_isSome (k := 2) (n := (toUtf8 group).length)
  have htwo : (2 : ℕ) ^ 16 = 256 ^ 2 := by norm_num
  rw [htwo, ← htopic, ← hgroup] at hheader ⊢
  unfold encodeSubscribe
  dsimp only
  revert hheader
  cases writeHeader .subscribe (2 + (toUtf8 topic).length + 2 + (toUtf8 group).length) 0 <;>
    cases writeUInt 2 (toUtf8 topic).length <;> cases writeUInt 2 (toUtf8 group).length <;> simp

/-- The type byte of a SUBSCRIBE frame. -/
theorem encodeSubscribe_type (h : encodeSubscribe topic group 0 = some frame) :
    frame[4]? = some MsgType.subscribe.toByte := by
  simp only [encodeSubscribe, writeHeader, Option.bind_eq_bind, Option.pure_def,
    Option.bind_eq_some_iff, Option.some.injEq] at h
  obtain ⟨_, ⟨len, -, id, -, rfl⟩, t, -, g, -, rfl⟩ := h
  simp [length_be]

end Encoders

/-! ## When the handler returns -/

namespace ClientMessage

variable {s : WsServer} {w : Ws} {m : ClientMessage} {msg : Json} {x : Option Json}

/-- The handler of a message returns. -/
def Returns (s : WsServer) (w : Ws) : ClientMessage → Prop
  | .subscribe topic group => topic = [] ∨ s.clientTopics.lookup w = none ∨
      (toUtf8 topic).length < 2 ^ 16 ∧ (toUtf8 group).length < 2 ^ 16
  | .publish topic body => topic = [] ∨
      (toUtf8 topic).length < 2 ^ 16 ∧ 2 + (toUtf8 topic).length + body.length < 2 ^ 32
  | .ack (some msgId) | .nack (some msgId) => 0 ≤ msgId ∧ msgId < 2 ^ 64
  | .invalid | .unknown _ | .ack none | .nack none => True
  | .throws => False

/-- A frame is sent where the encoder has returned one. -/
theorem sendFrame_threw (frame : Option Bytes) (sends : List (Ws × WsMessage)) :
    (s.sendFrame frame sends).threw = false ↔ frame.isSome = true := by
  cases frame <;> simp [WsServer.sendFrame]

theorem handleMessage_threw : (s.handleMessage w m).threw = false ↔ m.Returns s w := by
  cases m with
  | invalid | unknown => exact iff_of_true rfl trivial
  | throws => exact iff_of_false (by simp [WsServer.handleMessage]) id
  | ack id | nack id =>
    cases id with
    | none => exact iff_of_true rfl trivial
    | some msgId => exact (sendFrame_threw _ _).trans encodeAck_isSome
  | publish topic body =>
    rw [WsServer.handleMessage, Returns, ← encodeDataFrame_isSome .publish]
    split_ifs with htopic
    · exact iff_of_true rfl (.inl (List.isEmpty_iff.1 htopic))
    · rw [sendFrame_threw, or_iff_right (fun h => htopic (List.isEmpty_iff.2 h))]
  | subscribe topic group =>
    rw [WsServer.handleMessage, Returns, ← encodeSubscribe_isSome]
    split_ifs with htopic
    · exact iff_of_true rfl (.inl (List.isEmpty_iff.1 htopic))
    · rw [or_iff_right (fun h => htopic (List.isEmpty_iff.2 h)), WsServer.subscribe]
      cases s.clientTopics.lookup w with
      | none => exact iff_of_true rfl (.inl rfl)
      | some clientSet =>
        dsimp only
        rw [sendFrame_threw, or_iff_right (Option.some_ne_none _)]

/-- When the handler returns, the two maps are as before or a SUBSCRIBE frame was sent. -/
theorem handleMessage_maps (h : (s.handleMessage w m).threw = false) :
    (s.handleMessage w m).server = s ∨
      ∃ frame ∈ (s.handleMessage w m).frames, frame[4]? = some MsgType.subscribe.toByte := by
  cases m with
  | invalid | unknown | throws => exact .inl rfl
  | ack id | nack id =>
    cases id with
    | none => exact .inl rfl
    | some msgId => exact .inl (WsServer.sendFrame_server _ _ _)
  | publish topic body =>
    rw [WsServer.handleMessage]
    split_ifs
    · exact .inl rfl
    · exact .inl (WsServer.sendFrame_server _ _ _)
  | subscribe topic group =>
    rw [WsServer.handleMessage] at h ⊢
    split_ifs at h ⊢
    · exact .inl rfl
    · rw [WsServer.subscribe] at h ⊢
      cases hlookup : s.clientTopics.lookup w with
      | none => exact .inl rfl
      | some clientSet =>
        simp only [hlookup, sendFrame_threw] at h ⊢
        obtain ⟨frame, hframe⟩ := Option.isSome_iff_exists.1 h
        rw [hframe]
        exact .inr ⟨frame, List.mem_singleton_self _, encodeSubscribe_type hframe⟩

/-- The identifier of an answer is missing, or `BigInt` makes a number of it that fits its field. -/
def FitsId (x : Option Json) : Prop :=
  ∀ v, x = some v → v.isNull = false → ∃ n, v.toBigInt = some n ∧ 0 ≤ n ∧ n < 2 ^ 64

/-- What a value has to be for the handler to return. -/
structure Harmless (s : WsServer) (w : Ws) (msg : Json) : Prop where
  /-- It is not `null`. -/
  notNull : msg.isNull = false
  /-- The topic and the group of a subscription are converted, and fit if it is tracked. -/
  subscribe : isString (typeOf msg) (JsString.ofString "subscribe") = true →
    (topicOf msg).Convertible ∧ (groupOf msg).Convertible ∧
      ∀ topic group, (topicOf msg).toStr = some topic → (groupOf msg).toStr = some group →
        topic = [] ∨ s.clientTopics.lookup w = none ∨
          (toUtf8 topic).length < 2 ^ 16 ∧ (toUtf8 group).length < 2 ^ 16
  /-- The topic of a publication is converted, and fits as the payload does. -/
  publish : isString (typeOf msg) (JsString.ofString "publish") = true →
    (topicOf msg).Convertible ∧ ∀ topic, (topicOf msg).toStr = some topic → topic = [] ∨
      (toUtf8 topic).length < 2 ^ 16 ∧ 2 + (toUtf8 topic).length + (bodyOf msg).length < 2 ^ 32
  /-- So does the identifier of an ACK. -/
  ack : isString (typeOf msg) (JsString.ofString "ack") = true → FitsId (msgIdOf msg)
  /-- So does that of a NACK. -/
  nack : isString (typeOf msg) (JsString.ofString "nack") = true → FitsId (msgIdOf msg)
  /-- Another type is converted. -/
  other : (∀ name ∈ ["subscribe", "publish", "ack", "nack"],
      isString (typeOf msg) (JsString.ofString name) = false) →
    ∀ v, typeOf msg = some v → v.Convertible

/-- A value is one string only. -/
theorem isString_unique {t t' : JsString} (h : isString x t = true) (h' : isString x t' = true) :
    t = t' := by
  cases x with
  | none => cases h
  | some v =>
    cases v with
    | string u => exact (of_decide_eq_true h).symm.trans (of_decide_eq_true h')
    | null | bool | number | array | object => cases h

/-- The handler of an answer returns exactly when its identifier fits. -/
theorem idOf_returns (answer : Option ℤ → ClientMessage) (hnone : (answer none).Returns s w)
    (hsome : ∀ n, (answer (some n)).Returns s w ↔ 0 ≤ n ∧ n < 2 ^ 64) :
    (match idOf x with
      | some id => answer id
      | none => .throws).Returns s w ↔ FitsId x := by
  cases x with
  | none => exact iff_of_true hnone fun v hv => by cases hv
  | some v =>
    cases hnull : v.isNull with
    | true =>
      cases v with
      | null =>
        refine iff_of_true hnone fun v hv hnot => ?_
        rw [← Option.some.inj hv] at hnot
        cases hnot
      | bool | number | string | array | object => cases hnull
    | false =>
      have hid : idOf (some v) = v.toBigInt.map some := by
        cases v with
        | null => cases hnull
        | bool | number | string | array | object => rfl
      have hfits : FitsId (some v) ↔ ∃ n, v.toBigInt = some n ∧ 0 ≤ n ∧ n < 2 ^ 64 :=
        ⟨fun h => h v rfl hnull, fun h v' hv' _ => Option.some.inj hv' ▸ h⟩
      rw [hid, hfits]
      cases v.toBigInt with
      | none => exact iff_of_false id fun ⟨n, hn, _⟩ => by cases hn
      | some n =>
        rw [Option.map_some]
        refine (hsome n).trans ⟨fun h => ⟨n, rfl, h⟩, fun ⟨n', hn', h⟩ => ?_⟩
        rwa [Option.some.inj hn']

/-- The handler of a subscription returns exactly when its texts are converted and fit. -/
theorem subscribe_returns {topic group : Json} :
    (match topic.toStr, group.toStr with
      | some topic, some group => ClientMessage.subscribe topic group
      | _, _ => .throws).Returns s w ↔
      topic.Convertible ∧ group.Convertible ∧ ∀ t g, topic.toStr = some t → group.toStr = some g →
        t = [] ∨ s.clientTopics.lookup w = none ∨
          (toUtf8 t).length < 2 ^ 16 ∧ (toUtf8 g).length < 2 ^ 16 := by
  rw [← Json.toStr_isSome, ← Json.toStr_isSome]
  cases topic.toStr with
  | none => exact iff_of_false id fun h => by cases h.1
  | some t =>
    cases group.toStr with
    | none => exact iff_of_false id fun h => by cases h.2.1
    | some g => simp [Returns]

/-- The handler of a publication returns exactly when its topic is converted and fits. -/
theorem publish_returns {topic : Json} {body : Bytes} :
    (match topic.toStr with
      | some topic => ClientMessage.publish topic body
      | none => .throws).Returns s w ↔
      topic.Convertible ∧ ∀ t, topic.toStr = some t → t = [] ∨
        (toUtf8 t).length < 2 ^ 16 ∧ 2 + (toUtf8 t).length + body.length < 2 ^ 32 := by
  rw [← Json.toStr_isSome]
  cases topic.toStr with
  | none => exact iff_of_false id fun h => by cases h.1
  | some t => simp [Returns]

/-- The default handler returns exactly when the type is converted. -/
theorem unknown_returns :
    (match template x with
      | some type => ClientMessage.unknown type
      | none => .throws).Returns s w ↔ ∀ v, x = some v → v.Convertible := by
  cases x with
  | none => exact iff_of_true trivial fun v hv => by cases hv
  | some v =>
    have hv : (∀ v', some v = some v' → v'.Convertible) ↔ v.toStr.isSome = true := by
      rw [Json.toStr_isSome]
      exact ⟨fun h => h v rfl, fun h v' hv' => Option.some.inj hv' ▸ h⟩
    rw [hv, template]
    cases v.toStr <;> simp [Returns]

/-- The handler returns exactly on these values. -/
theorem ofJson_returns : (ofJson msg).Returns s w ↔ Harmless s w msg := by
  -- The branch that is taken decides, since the type is one string only.
  have hother {a b : JsString} {p : Prop} (h : isString (typeOf msg) a = true)
      (hne : a ≠ b) (h' : isString (typeOf msg) b = true) : p :=
    absurd (isString_unique h h') hne
  have hnone {name : String} (hname : name ∈ ["subscribe", "publish", "ack", "nack"])
      (h : isString (typeOf msg) (JsString.ofString name) = true) {p : Prop}
      (hall : ∀ name ∈ ["subscribe", "publish", "ack", "nack"],
        isString (typeOf msg) (JsString.ofString name) = false) : p :=
    absurd (h.symm.trans (hall name hname)) (by decide)
  unfold ofJson
  split_ifs with hnull hsubscribe hpublish hack hnack
  · refine iff_of_false id fun h => ?_
    rw [h.notNull] at hnull
    cases hnull
  · exact subscribe_returns.trans ⟨fun h => ⟨Bool.eq_false_iff.2 hnull, fun _ => h,
      hother hsubscribe (by decide), hother hsubscribe (by decide),
      hother hsubscribe (by decide), hnone (by decide) hsubscribe⟩,
      fun h => h.subscribe hsubscribe⟩
  · exact publish_returns.trans ⟨fun h => ⟨Bool.eq_false_iff.2 hnull,
      hother hpublish (by decide), fun _ => h, hother hpublish (by decide),
      hother hpublish (by decide), hnone (by decide) hpublish⟩,
      fun h => h.publish hpublish⟩
  · exact (idOf_returns .ack trivial fun _ => Iff.rfl).trans
      ⟨fun h => ⟨Bool.eq_false_iff.2 hnull, hother hack (by decide),
        hother hack (by decide), fun _ => h, hother hack (by decide),
        hnone (by decide) hack⟩, fun h => h.ack hack⟩
  · exact (idOf_returns .nack trivial fun _ => Iff.rfl).trans
      ⟨fun h => ⟨Bool.eq_false_iff.2 hnull, hother hnack (by decide),
        hother hnack (by decide), hother hnack (by decide), fun _ => h,
        hnone (by decide) hnack⟩, fun h => h.nack hnack⟩
  · refine unknown_returns.trans ⟨fun h => ⟨Bool.eq_false_iff.2 hnull, fun h => absurd h hsubscribe,
      fun h => absurd h hpublish, fun h => absurd h hack, fun h => absurd h hnack, fun _ => h⟩,
      fun h => h.other ?_⟩
    simp only [Bool.not_eq_true] at hsubscribe hpublish hack hnack
    simp [hsubscribe, hpublish, hack, hnack]

end ClientMessage

/-! ## Texts that are handled -/

namespace WsServer

/-- `#handleMessage`, on the bytes of a client's message. -/
def handleText (s : WsServer) (w : Ws) (raw : Bytes) : Turn :=
  s.handleMessage w (ClientMessage.ofText raw)

/-- `#handleMessage` returns, and unless it has handed a SUBSCRIBE frame to `tcp.send`, the two maps
are as before. -/
structure Handles (s : WsServer) (w : Ws) (raw : Bytes) : Prop where
  /-- No exception escapes. -/
  returns : (s.handleText w raw).threw = false
  /-- Nothing is tracked that was not forwarded. -/
  maps : (∀ frame ∈ (s.handleText w raw).frames, frame[4]? ≠ some MsgType.subscribe.toByte) →
    (s.handleText w raw).server.clientTopics = s.clientTopics ∧
      (s.handleText w raw).server.topicClients = s.topicClients

/-- In every state, and for every text that a client can send: the text is handled exactly when it
is no JSON text, or one of a harmless value. -/
theorem handles_iff (s : WsServer) (w : Ws) (raw : Bytes) :
    s.Handles w raw ↔ ∀ msg, Json.Text (ofUtf8 raw) msg → ClientMessage.Harmless s w msg := by
  have hreturns : s.Handles w raw ↔ (ClientMessage.ofText raw).Returns s w := by
    rw [← ClientMessage.handleMessage_threw]
    refine ⟨Handles.returns, fun h => ⟨h, fun hframes => ?_⟩⟩
    obtain hserver | ⟨frame, hframe, htype⟩ := ClientMessage.handleMessage_maps h
    · rw [handleText, hserver]
      exact ⟨rfl, rfl⟩
    · exact absurd htype (hframes frame hframe)
  rw [hreturns, ClientMessage.ofText]
  simp only [← Json.parse_eq_some_iff]
  cases Json.parse (ofUtf8 raw) with
  | none => exact iff_of_true trivial fun msg hmsg => by cases hmsg
  | some msg =>
    refine ClientMessage.ofJson_returns.trans ⟨fun h msg' hmsg' => ?_, fun h => h msg rfl⟩
    rwa [← Option.some.inj hmsg']

/-- A client that has connected sends `null`, or an ACK whose identifier is no number. -/
theorem null_not_handled :
    ¬create.connection.Handles 0 (ascii "null") ∧
      ¬create.connection.Handles 0 (ascii "\x7b\"type\":\"ack\",\"msgId\":\"abc\"\x7d") := by
  have hnull : ClientMessage.ofText (ascii "null") = .throws := by decide +kernel
  have hack : ClientMessage.ofText (ascii "\x7b\"type\":\"ack\",\"msgId\":\"abc\"\x7d") =
      .throws := by decide +kernel
  constructor
  · intro h
    have hthrew := h.returns
    rw [handleText, hnull] at hthrew
    cases hthrew
  · intro h
    have hthrew := h.returns
    rw [handleText, hack] at hthrew
    cases hthrew

end WsServer

end EventQueue.Gateway
