import EventQueue.Lib.JsonText
import EventQueue.Services.GatewayClient

/-!
# The order service

`services/order/index.js`. When the client connects, an interval is set that publishes an order on
each of its ticks, and a listener that clears it on the next `disconnect`. The random choices and
the readings of the clock are arguments of the tick.

`orders_numbered` is what this amounts to over any run: an interval is there exactly while the
socket is open or closing, never two of them, and the orders that are published have distinct
identifiers, also across reconnects.
-/

namespace EventQueue.Services

open JsString (ofString)
open Gateway.ClientMessage (isString template)
open Transition (Run exec run_of_exec)

/-! ## An order -/

/-- `PRODUCTS`: the name and the price of each product. -/
def PRODUCTS : List (JsString × ℕ) :=
  [(ofString "Laptop", 75000), (ofString "Headphones", 2999), (ofString "Monitor", 22000),
    (ofString "Keyboard", 3499), (ofString "Mouse", 1299)]

/-- The random choices and the readings of the clock of a call of `makeOrder`. -/
structure Draw where
  /-- The index of the product. -/
  product : Fin PRODUCTS.length
  /-- The quantity, less one. -/
  quantity : Fin 3
  /-- The number of the customer. -/
  customer : Fin 500
  /-- `Date.now()` in the identifier. -/
  now : ℕ
  /-- `Date.now()` in the time stamp. -/
  timestamp : ℕ

/-- The identifier of an order. -/
def orderIdText (now count : ℕ) : JsString :=
  ofString "ORD-" ++ JsNumber.digits now ++ ofString "-" ++ JsNumber.digits count

/-- `makeOrder`, with the count that it has drawn. -/
def makeOrder (draw : Draw) (count : ℕ) : Json :=
  let product := PRODUCTS[draw.product]
  let quantity := draw.quantity.val + 1
  .object [(ofString "orderId", .string (orderIdText draw.now count)),
    (ofString "customerId", .string (ofString "cust_" ++ JsNumber.digits draw.customer)),
    (ofString "items", .array [.object [
      (ofString "productId", .number false (draw.product.val + 1) 0),
      (ofString "name", .string product.1), (ofString "price", .number false product.2 0),
      (ofString "quantity", .number false quantity 0)]]),
    (ofString "total", .number false (product.2 * quantity) 0),
    (ofString "currency", .string (ofString "INR")),
    (ofString "timestamp", .number false draw.timestamp 0)]

/-- The orders that are made one after the other. -/
def makeOrders (draws : List Draw) : List Json :=
  (draws.zipIdx 1).map fun p => makeOrder p.1 p.2

/-! ## The service -/

/-- The state of the service. -/
structure OrderService where
  /-- The client of the gateway. -/
  gw : GatewayClient
  /-- The number of intervals, each with a listener that clears it. -/
  intervals : ℕ
  /-- `orderCount`. -/
  orderCount : ℕ
  /-- The process has ended. -/
  exited : Bool

/-- What can happen to the service. -/
inductive OrderEvent
  /-- `connect` is called. -/
  | connect
  /-- The socket opens. -/
  | opened
  /-- The closing handshake starts. -/
  | closing
  /-- The socket has closed. -/
  | closed
  /-- A message arrives. -/
  | message (raw : Bytes)
  /-- An interval ticks. -/
  | tick (draw : Draw)

namespace OrderService

/-- The service when it starts. -/
def create : OrderService := ⟨GatewayClient.create, 0, 0, false⟩

/-- `body?.[key]` in a template, which throws when it cannot be converted. -/
def shows (msg : Json) (key : JsString) : Bool :=
  (template ((msg.property (ofString "body")).bind (Json.property key))).isSome

/-- The listener of `event` returns: what it writes to the console can be converted. -/
def returns (msg : Json) : Bool :=
  let topic := msg.property (ofString "topic")
  if isString topic (ofString "payment.success") then shows msg (ofString "orderId")
  else if isString topic (ofString "payment.failed") then
    shows msg (ofString "orderId") && shows msg (ofString "reason")
  else true

/-- The listeners of what the client emits return. -/
def noticeReturns : Notice → Bool
  | .event msg => returns msg
  | .message _ | .status _ => true

/-- What the listener of `connect` sends. -/
def greeting : List Json :=
  [(Call.subscribe (ofString "payment.success") (ofString "order-svc")).message,
    (Call.subscribe (ofString "payment.failed") (ofString "order-svc")).message]

/-- The socket is there, and has not closed since it opened. -/
def connected (gw : GatewayClient) : Bool :=
  gw.readyState = some .OPEN || gw.readyState = some .CLOSING

/-- The service after an event; `none` when the event cannot happen. -/
def step (o : OrderService) (e : OrderEvent) : Option OrderService :=
  if o.exited then none
  else
    match e with
    | .connect => (o.gw.step .connect).map fun gw => { o with gw }
    | .opened => (o.gw.step (.opened greeting)).map fun gw =>
        { o with gw, intervals := o.intervals + 1 }
    | .closing => (o.gw.step .closing).map fun gw => { o with gw }
    -- `disconnect` is emitted, and each of its listeners clears its interval.
    | .closed => (o.gw.step .closed).map fun gw => { o with gw, intervals := 0 }
    | .message raw =>
      if connected o.gw then
        match onMessage raw with
        | none => some { o with exited := true }
        | some notices => some { o with exited := !notices.all noticeReturns }
      else none
    | .tick draw =>
      if 0 < o.intervals then
        let order := makeOrder draw (o.orderCount + 1)
        some { o with
          gw := o.gw.send (Call.publish (ofString "order.created") order).message
          orderCount := o.orderCount + 1 }
      else none

end OrderService

/-- The choices of a tick. -/
def OrderEvent.draw : OrderEvent → Option Draw
  | .tick draw => some draw
  | _ => none

/-- The socket opens. -/
def OrderEvent.isOpened : OrderEvent → Bool
  | .opened => true
  | _ => false

/-! ## Identifiers -/

/-- A text before the first hyphen, and after it, are determined by the whole. -/
theorem append_hyphen_inj {u : UInt16} {s s' t t' : JsString} (hs : u ∉ s) (hs' : u ∉ s')
    (h : s ++ u :: t = s' ++ u :: t') : t = t' := by
  induction s generalizing s' with
  | nil =>
    cases s' with
    | nil => exact (List.cons.inj h).2
    | cons v s' => exact absurd (List.cons.inj h).1 (by rintro rfl; simp at hs')
  | cons v s ih =>
    cases s' with
    | nil => exact absurd (List.cons.inj h).1 (by rintro rfl; simp at hs)
    | cons v' s' =>
      exact ih (fun hu => hs (by simp [hu])) (fun hu => hs' (by simp [hu])) (List.cons.inj h).2

/-- The count of an order can be read off its identifier. -/
theorem orderIdText_inj {now now' count count' : ℕ}
    (h : orderIdText now count = orderIdText now' count') : count = count' := by
  have hhyphen : ∀ n, (0x2D : UInt16) ∉ JsNumber.digits n := fun n hmem =>
    absurd ((JsNumber.digits_digits n).2 _ hmem) (by decide)
  have hsplit : ∀ now count, orderIdText now count =
      ofString "ORD-" ++ (JsNumber.digits now ++ 0x2D :: JsNumber.digits count) := by
    intro now count
    rw [orderIdText, show ofString "-" = [0x2D] by decide]
    simp
  rw [hsplit, hsplit] at h
  have hcount := append_hyphen_inj (hhyphen now) (hhyphen now') (List.append_cancel_left h)
  rw [← JsNumber.ofDigits_digits count, hcount, JsNumber.ofDigits_digits]

/-- Orders that are made one after the other have distinct identifiers. -/
theorem makeOrders_nodup (draws : List Draw) :
    ((makeOrders draws).map (Json.property (ofString "orderId"))).Nodup := by
  have hcounts : (draws.zipIdx 1).Pairwise fun p p' => p.2 ≠ p'.2 := by
    rw [← List.pairwise_map (f := Prod.snd), List.zipIdx_map_snd]
    exact List.nodup_range'
  rw [makeOrders, List.map_map, List.Nodup, List.pairwise_map]
  refine hcounts.imp fun hne heq => hne ?_
  exact orderIdText_inj (Json.string.inj (Option.some.inj heq))

/-- One more order. -/
theorem makeOrders_concat (draws : List Draw) (draw : Draw) :
    makeOrders (draws ++ [draw]) = makeOrders draws ++ [makeOrder draw (draws.length + 1)] := by
  simp [makeOrders, List.zipIdx_append, Nat.add_comm]

/-! ## Runs -/

namespace OrderService

variable {o o' : OrderService} {e : OrderEvent} {es : List OrderEvent} {draws : List Draw}
  {openings : ℕ}

/-- What the service keeps. -/
structure Numbered (o : OrderService) (draws : List Draw) (openings : ℕ) : Prop where
  /-- There is an interval exactly while there is a connection. -/
  intervals : o.intervals = if connected o.gw then 1 else 0
  /-- The orders have been counted. -/
  count : o.orderCount = draws.length
  /-- They have been published, and each socket that opened got the subscriptions. -/
  called : o.gw.Called greeting ((makeOrders draws).map (Call.publish (ofString "order.created")))
    openings

theorem numbered_create : Numbered create [] 0 := ⟨rfl, rfl, .create⟩

/-- Every event keeps it. -/
theorem Numbered.step (h : Numbered o draws openings) (hstep : o.step e = some o') :
    Numbered o' (draws ++ e.draw.toList) (openings + [e].countP OrderEvent.isOpened) := by
  have hsame : ∀ {o'' : OrderService} {n : ℕ}, Numbered o'' draws n →
      Numbered o'' (draws ++ []) n := by
    intro o'' n h
    rwa [List.append_nil]
  unfold OrderService.step at hstep
  have hrunning : ¬o.exited = true := by
    intro hexited
    rw [if_pos hexited] at hstep
    cases hstep
  rw [if_neg hrunning] at hstep
  cases e with
  | connect =>
    obtain ⟨gw, hgw, rfl⟩ := Option.map_eq_some_iff.mp hstep
    refine hsame ⟨?_, h.count, h.called.step hgw rfl rfl⟩
    -- No connection is there yet, and none is made at once.
    have hdue : o.gw.due = true := by
      by_contra hnot
      simp [GatewayClient.step, hnot] at hgw
    obtain ⟨cs, hrun, -⟩ := h.called
    have hstate := GatewayClient.readyState_of_due hrun hdue
    have hbefore : connected o.gw = false := by
      rcases hstate with hstate | hstate <;> simp [connected, hstate]
    have hafter : connected gw = false := by
      simp only [GatewayClient.step, hdue, if_true] at hgw
      split_ifs at hgw <;> obtain rfl := Option.some.inj hgw
      · exact hbefore
      · rfl
    rw [hafter, ← hbefore]
    exact h.intervals
  | opened =>
    obtain ⟨gw, hgw, rfl⟩ := Option.map_eq_some_iff.mp hstep
    refine hsame ⟨?_, h.count, h.called.opened hgw⟩
    obtain ⟨hconnecting, hopen, -⟩ := GatewayClient.readyState_opened hgw
    have hzero := h.intervals
    simp only [connected, hconnecting] at hzero
    simp only [connected, hopen]
    simpa using hzero
  | closing =>
    obtain ⟨gw, hgw, rfl⟩ := Option.map_eq_some_iff.mp hstep
    refine hsame ⟨?_, h.count, h.called.step hgw rfl rfl⟩
    obtain ⟨hopen, hclosing, -⟩ := GatewayClient.readyState_closing hgw
    have hone := h.intervals
    simp only [connected, hopen] at hone
    simp only [connected, hclosing]
    simpa using hone
  | closed =>
    obtain ⟨gw, hgw, rfl⟩ := Option.map_eq_some_iff.mp hstep
    refine hsame ⟨?_, h.count, h.called.step hgw rfl rfl⟩
    simp [connected, GatewayClient.readyState_closed hgw]
  | message raw =>
    dsimp only at hstep
    have hconnected : connected o.gw = true := by
      by_contra hnot
      rw [if_neg hnot] at hstep
      cases hstep
    rw [if_pos hconnected] at hstep
    cases hmessage : onMessage raw with
    | none =>
      rw [hmessage] at hstep
      obtain rfl := Option.some.inj hstep
      exact hsame ⟨h.intervals, h.count, h.called⟩
    | some notices =>
      rw [hmessage] at hstep
      obtain rfl := Option.some.inj hstep
      exact hsame ⟨h.intervals, h.count, h.called⟩
  | tick draw =>
    dsimp only at hstep
    have hthere : 0 < o.intervals := by
      by_contra hnot
      rw [if_neg hnot] at hstep
      cases hstep
    rw [if_pos hthere] at hstep
    obtain rfl := Option.some.inj hstep
    refine ⟨?_, ?_, ?_⟩
    · simp only [connected, GatewayClient.readyState_send]
      exact h.intervals
    · simp [OrderEvent.draw, h.count]
    · rw [OrderEvent.draw, Option.toList_some, makeOrders_concat, List.map_append, ← h.count]
      exact h.called.send _

/-- In every run of the service, over any number of sockets: there is one interval while the socket
is open or closing, and none otherwise. Each tick has made one order, the orders have distinct
identifiers, and apart from the subscriptions, what the service has written to all sockets, one
after the other, and what waits for the next, are these orders in order. The subscriptions were
written once for each time that a socket opened. -/
theorem orders_numbered (hrun : Run step (fun _ _ => True) create es o) :
    o.intervals = (if connected o.gw then 1 else 0) ∧
      ∃ orders : List Json, orders = makeOrders (es.filterMap OrderEvent.draw) ∧
        (orders.map (Json.property (ofString "orderId"))).Nodup ∧
        ∃ log : List Entry, o.gw.written = log.map Entry.msg ∧
          log.filterMap Entry.ownMsg ++ o.gw.pendingQueue =
            orders.map (fun order => (Call.publish (ofString "order.created") order).message) ∧
          log.filterMap Entry.greetingMsg =
            (List.replicate (es.countP OrderEvent.isOpened) greeting).flatten := by
  have hnumbered : Numbered o (es.filterMap OrderEvent.draw) (es.countP OrderEvent.isOpened) := by
    induction hrun with
    | nil => exact numbered_create
    | @snoc _ _ es e _ _ hstep ih =>
      have hone : [e].filterMap OrderEvent.draw = e.draw.toList := by
        cases e <;> rfl
      rw [List.filterMap_append, hone, List.countP_append]
      exact ih.step hstep
  obtain ⟨log, hwritten, hown, hgreeting⟩ := hnumbered.called.exists_log
  refine ⟨hnumbered.intervals, _, rfl, makeOrders_nodup _, log, hwritten, ?_, hgreeting⟩
  rw [hown, List.map_map]
  rfl

/-- Two orders, the second of which is made while the socket closes, and one after the reconnect. -/
def threeOrders : List OrderEvent :=
  [.connect, .opened, .tick ⟨⟨0, by decide⟩, 2, 17, 1000, 1000⟩, .closing,
    .tick ⟨⟨4, by decide⟩, 0, 17, 4000, 4001⟩, .closed, .connect, .opened,
    .tick ⟨⟨0, by decide⟩, 2, 17, 9000, 9000⟩]

/-- They have distinct identifiers, and both sockets got the subscriptions. -/
theorem orders_numbered_threeOrders :
    ∃ o, exec step create threeOrders = some o ∧ o.intervals = 1 ∧
      ∃ orders : List Json, orders.length = 3 ∧
        (orders.map (Json.property (ofString "orderId"))).Nodup ∧
        ∃ log : List Entry, o.gw.written = log.map Entry.msg ∧
          log.filterMap Entry.ownMsg =
            orders.map (fun order => (Call.publish (ofString "order.created") order).message) ∧
          log.filterMap Entry.greetingMsg = greeting ++ greeting := by
  obtain ⟨o, hexec⟩ : ∃ o, exec step create threeOrders = some o := ⟨_, rfl⟩
  have hend : o.intervals = 1 ∧ o.gw.pendingQueue = [] := by
    obtain rfl := Option.some.inj hexec
    exact ⟨rfl, rfl⟩
  obtain ⟨-, orders, horders, hnodup, log, hwritten, hown, hgreeting⟩ :=
    orders_numbered (run_of_exec hexec)
  rw [hend.2, List.append_nil] at hown
  exact ⟨o, hexec, hend.1, orders, by rw [horders]; rfl, hnodup, log, hwritten, hown, hgreeting⟩

end OrderService

end EventQueue.Services
