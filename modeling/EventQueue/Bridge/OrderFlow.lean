import EventQueue.Bridge.RoundTrip
import EventQueue.Services.Order
import EventQueue.Services.Payment

/-!
# From an order to its payment

What the order service publishes, seen by the payment service. The order has been written and parsed
by both, by the gateway twice, and has stayed with the broker as bytes in between. The amount is
still the same number, so that the payment service decides on the amount that was ordered, and its
answer names the message that the broker delivered.
-/

namespace EventQueue.Bridge

open Broker (Message)
open Gateway (Frame ClientMessage WsServer WsMessage Ws frameCodec)
open Gateway.ClientMessage (template)
open JsString (ofString ofUtf8 toUtf8)
open Services (Call Notice rawText onMessage Reaction PendingOrder makeOrder Draw)

/-- A value with a property is published as it is. -/
theorem publishedBody_of_property {body v : Json} {key : JsString}
    (h : body.property key = some v) : publishedBody body = body := by
  cases body with
  | object ms => rfl
  | _ => cases h

/-- A value that is kept of a finite number is converted to that number. -/
theorem toNumber_of_kept {w : Json} {q : ℚ} (h : w.value = .number (.finite q)) :
    w.toNumber = some (some (.finite q)) ∧ w.localizes = true ∧ w.isNull = false := by
  cases w with
  | number negative c e =>
    exact ⟨congrArg (fun x => some (some x)) (JsValue.number.inj h), rfl, rfl⟩
  | _ => cases h

/-- The broker delivers an order that was published with an identifier and an amount. The payment
service is going to charge it, with the same identifier, on `payment.success` exactly if the amount
that was ordered is positive and at most the largest one; and its answer is the broker's ACK of the
message that was delivered. -/
theorem order_is_charged (order : Json) (orderId : JsString) (negative : Bool) (c : ℕ) (e : ℤ)
    (q : ℚ)
    (hid : order.property (ofString "orderId") = some (.string orderId)) (hne : orderId ≠ [])
    (htotal : order.property (ofString "total") = some (.number negative c e))
    (hfinite : JsNumber.ofDecimal negative c e = .finite q)
    (m : Message) (htopic : m.topic = toUtf8 (ofString "order.created"))
    (hbody : m.body = toUtf8 (publishedBody order).stringify) (fits : FitsFrame m)
    (maxAmount : Option JsNumber) (server : WsServer) (w : Ws) :
    ∃ (topic : JsString) (msg : Json) (pending : PendingOrder) (msgId : JsString),
      dispatched (Outgoing.event m fits).frame = some (topic, m.msg_id, m.body) ∧
      onMessage (WsMessage.event topic m.msg_id m.body).raw = some [.message msg, .event msg] ∧
      Reaction.ofEvent msg = .process pending ∧ template pending.msgId = some msgId ∧
      (pending.topic maxAmount = ofString "payment.success" ↔
        0 < q ∧ JsNumber.atMost (some (.finite q)) maxAmount = true) ∧
      (∀ now, (pending.result maxAmount now).property (ofString "orderId") =
        some (.string orderId)) ∧
      ∃ f : Frame, frameCodec.Valid f ∧
        server.handleMessage w (ClientMessage.ofText (rawText (Call.ack msgId).message)) =
          ⟨server, [f.encode], [], false⟩ ∧
        Command.ofFrame (toRaw f) = .ack m.msg_id := by
  obtain ⟨msg, hmsg, hvalue⟩ := onMessage_raw (.event (ofUtf8 m.topic) m.msg_id m.body)
  -- The body is an object, so that it was published as it is.
  have hpublished := publishedBody_of_property hid
  rw [hbody] at hvalue
  have hbodyValue := body_of_event hvalue
  rw [deliveredBody, hpublished] at hbodyValue
  obtain ⟨body, hbodyOf, hbodyValue⟩ := Option.map_eq_some_iff.mp hbodyValue
  -- What the handler reads of the event.
  have htopicOf : msg.property (ofString "topic") = some (.string (ofString "order.created")) := by
    have htext : ofUtf8 m.topic = ofString "order.created" := by
      rw [htopic]
      decide +kernel
    rw [htext] at hvalue
    exact Json.string_of_kept hvalue (k := ofString "topic") rfl
  have hmsgId : msg.property (ofString "msgId") =
      some (.string (JsNumber.digits m.msg_id.toNat)) :=
    Json.string_of_kept hvalue (k := ofString "msgId") rfl
  have horderId := Json.string_of_kept hbodyValue hid
  obtain ⟨total, htotalOf, htotalValue⟩ : ∃ total, body.property (ofString "total") = some total ∧
      total.value = .number (.finite q) := by
    have hkept := Json.property_of_kept hbodyValue (ofString "total")
    rw [htotal, Option.map_some] at hkept
    obtain ⟨total, htotalOf, htotalValue⟩ := Option.map_eq_some_iff.mp hkept
    refine ⟨total, htotalOf, htotalValue.trans ?_⟩
    rw [Json.value, hfinite]
    rfl
  obtain ⟨hnumber, hlocalizes, hnull⟩ := toNumber_of_kept htotalValue
  let pending : PendingOrder := ⟨msg, some (.string (JsNumber.digits m.msg_id.toNat)),
    .string orderId, total, body.property (ofString "currency")⟩
  have hreaction : Reaction.ofEvent msg = .process pending := by
    have hobject : Gateway.ClientMessage.orObject (some body) = body := by
      cases body with
      | null => cases horderId
      | _ => rfl
    have htruthy : (Json.string orderId).truthy = true := by simpa [Json.truthy] using hne
    unfold Reaction.ofEvent
    simp only [htopicOf, hmsgId, hbodyOf, hobject, horderId, htotalOf, htruthy, hnull, hlocalizes]
    simp [Gateway.ClientMessage.isString, Json.toStr, pending]
  have hvalid : pending.valid maxAmount = true ↔
      0 < q ∧ JsNumber.atMost (some (.finite q)) maxAmount = true := by
    simp [pending, PendingOrder.valid, PendingOrder.positive, hnumber, JsNumber.less, JsNumber.lt]
  refine ⟨ofUtf8 m.topic, msg, pending, _, dispatched_frame _, hmsg, hreaction, rfl, ?_,
    fun now => rfl, exists_ack m.msg_id server w⟩
  rw [← hvalid, PendingOrder.topic]
  cases pending.valid maxAmount with
  | true => simp
  | false => simpa using (by decide : ofString "payment.failed" ≠ ofString "payment.success")

/-- An order over the largest amount. -/
def tooMuch : Json :=
  .object [(ofString "orderId", .string (ofString "A")), (ofString "total", .number false 5 0)]

/-- It does not succeed. -/
theorem order_is_charged_tooMuch :
    ∃ (topic : JsString) (msg : Json) (pending : PendingOrder),
      onMessage (WsMessage.event topic 1 (toUtf8 (publishedBody tooMuch).stringify)).raw =
        some [.message msg, .event msg] ∧
      Reaction.ofEvent msg = .process pending ∧
      pending.topic (some (.finite 3)) ≠ ofString "payment.success" := by
  have hfits : FitsFrame ⟨1, toUtf8 (ofString "order.created"),
      toUtf8 (publishedBody tooMuch).stringify, 0, 0⟩ := by decide +kernel
  obtain ⟨topic, msg, pending, _, _, hmsg, hreaction, _, htopic, _⟩ :=
    order_is_charged tooMuch (ofString "A") false 5 0 5 rfl (by decide) rfl (by decide +kernel)
      ⟨1, toUtf8 (ofString "order.created"), toUtf8 (publishedBody tooMuch).stringify, 0, 0⟩
      (by with_reducible rfl) (by with_reducible rfl) hfits (some (.finite 3)) WsServer.create 0
  refine ⟨topic, msg, pending, hmsg, hreaction, htopic.not.mpr ?_⟩
  decide +kernel

end EventQueue.Bridge
