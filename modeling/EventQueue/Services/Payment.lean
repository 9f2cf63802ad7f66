import EventQueue.Lib.ToNumber
import EventQueue.Services.GatewayClient

/-!
# The payment service

`services/payment/index.js`. The handler of an event is asynchronous: an order that can be charged
waits for a timer, and then the service answers and publishes the result in one go; an order that
cannot be read is refused at once. Any number of orders wait at a time. What escapes the handler is
an unhandled rejection, which ends the process, though not before what else is due has been done.

`orders_accounted` is what comes of the orders over any run: each is refused once, or charged once,
or waits, and the service sends nothing but the answers and results of those, the result right after
the answer.
-/

namespace EventQueue.Services

open JsString (ofString)
open Gateway.ClientMessage (isString orObject template)
open Transition (Run exec run_of_exec)

/-! ## An order -/

/-- What the handler keeps of an event while it waits for the timer. -/
structure PendingOrder where
  /-- The event. -/
  msg : Json
  /-- `msgId`. -/
  msgId : Option Json
  /-- `orderId`. -/
  orderId : Json
  /-- `total`. -/
  total : Json
  /-- `currency`. -/
  currency : Option Json

/-- What the handler of an event does before it waits. -/
inductive Reaction
  /-- The event is on another topic. -/
  | ignore
  /-- The event is malformed. -/
  | refuse (msgId : JsString)
  /-- The order is to be charged. -/
  | process (order : PendingOrder)
  /-- An exception escapes. -/
  | throw

/-- The handler of `event`, up to the timer. The identifier and the amount of an order are written
to the console first, which throws when they cannot be converted. -/
def Reaction.ofEvent (msg : Json) : Reaction :=
  if !isString (msg.property (ofString "topic")) (ofString "order.created") then .ignore
  else
    let msgId := msg.property (ofString "msgId")
    let body := orObject (msg.property (ofString "body"))
    match body.property (ofString "orderId"), body.property (ofString "total") with
    | some orderId, some total =>
      if !orderId.truthy || total.isNull then (template msgId).elim .throw .refuse
      else if orderId.toStr.isSome && total.localizes then
        .process ⟨msg, msgId, orderId, total, body.property (ofString "currency")⟩
      else .throw
    | _, _ => (template msgId).elim .throw .refuse

namespace PendingOrder

/-- `total > 0`. -/
def positive (order : PendingOrder) : Bool :=
  order.total.toNumber.any fun total => JsNumber.less (some (.finite 0)) total

/-- `total <= 0`. -/
def notPositive (order : PendingOrder) : Bool :=
  order.total.toNumber.any fun total => JsNumber.atMost total (some (.finite 0))

/-- `total > 0 && total <= MAX_AMOUNT`, where `none` is NaN. -/
def valid (maxAmount : Option JsNumber) (order : PendingOrder) : Bool :=
  order.positive && order.total.toNumber.any fun total => JsNumber.atMost total maxAmount

/-- The topic of the result. -/
def topic (maxAmount : Option JsNumber) (order : PendingOrder) : JsString :=
  ofString (if order.valid maxAmount then "payment.success" else "payment.failed")

/-- The result, at a reading of the clock. -/
def result (maxAmount : Option JsNumber) (now : ℕ) (order : PendingOrder) : Json :=
  .object [(ofString "orderId", order.orderId), (ofString "amount", order.total),
    (ofString "currency", match order.currency with
      | none | some .null => .string (ofString "INR")
      | some currency => currency),
    (ofString "status", .string (ofString (if order.valid maxAmount then "success" else "failed"))),
    (ofString "reason", if order.valid maxAmount then .null
      else .string (ofString (if order.notPositive then "invalid_amount" else "limit_exceeded"))),
    (ofString "timestamp", .number false now 0)]

end PendingOrder

/-! ## The service -/

/-- The state of the service. -/
structure PaymentService where
  /-- The client of the gateway. -/
  gw : GatewayClient
  /-- The orders that wait for their timers. -/
  pending : List PendingOrder
  /-- The events whose handlers threw: the process is about to end. -/
  rejected : List Json
  /-- The process has ended. -/
  exited : Bool

/-- What can happen to the service. -/
inductive PaymentEvent
  /-- `connect` is called. -/
  | connect
  /-- The socket opens. -/
  | opened
  /-- The closing handshake starts. -/
  | closing
  /-- The socket has closed. -/
  | closed
  /-- A message arrives. -/
  | message (raw : Bytes)
  /-- The timer of a waiting order expires. -/
  | timeout (i : ℕ) (now : ℕ)

namespace PaymentService

/-- The service when it starts. -/
def create : PaymentService := ⟨GatewayClient.create, [], [], false⟩

/-- A method of the client is called. -/
def call (p : PaymentService) (c : Call) : PaymentService := { p with gw := p.gw.send c.message }

/-- The listener of `event`. -/
def onEvent (p : PaymentService) (msg : Json) : PaymentService :=
  match Reaction.ofEvent msg with
  | .ignore => p
  | .refuse msgId => p.call (.nack msgId)
  | .process order => { p with pending := p.pending ++ [order] }
  | .throw => { p with rejected := p.rejected ++ [msg] }

/-- The listeners of what the client emits. -/
def onNotice (p : PaymentService) : Notice → PaymentService
  | .event msg => p.onEvent msg
  | .message _ | .status _ => p

/-- The handler of an order goes on after its timer: `gw.ack` and `gw.publish`. -/
def charge (maxAmount : Option JsNumber) (p : PaymentService) (now : ℕ) (order : PendingOrder) :
    PaymentService :=
  match template order.msgId with
  | none => { p with rejected := p.rejected ++ [order.msg] }
  | some msgId => (p.call (.ack msgId)).call
      (.publish (order.topic maxAmount) (order.result maxAmount now))

/-- A message arrives only while the socket is open, or closes. -/
def receives (p : PaymentService) : Bool :=
  p.gw.readyState = some .OPEN || p.gw.readyState = some .CLOSING

/-- What the listener of `connect` sends. -/
def greeting : List Json :=
  [(Call.subscribe (ofString "order.created") (ofString "payment")).message]

/-- The service after an event; `none` when the event cannot happen. -/
def step (maxAmount : Option JsNumber) (p : PaymentService) (e : PaymentEvent) :
    Option PaymentService :=
  if p.exited then none
  else
    match e with
    | .connect => (p.gw.step .connect).map fun gw => { p with gw }
    | .opened => (p.gw.step (.opened greeting)).map fun gw => { p with gw }
    | .closing => (p.gw.step .closing).map fun gw => { p with gw }
    | .closed => (p.gw.step .closed).map fun gw => { p with gw }
    | .message raw =>
      if p.receives then
        match onMessage raw with
        | none => some { p with exited := true }
        | some notices => some (notices.foldl onNotice p)
      else none
    | .timeout i now => (p.pending[i]?).map fun order =>
        charge maxAmount { p with pending := p.pending.eraseIdx i } now order

end PaymentService

/-! ## What comes of an order -/

/-- The event is an order. -/
def isOrder (msg : Json) : Bool :=
  isString (msg.property (ofString "topic")) (ofString "order.created")

/-- The orders among what the client emits. -/
def Notice.order : Notice → Option Json
  | .event msg => if isOrder msg then some msg else none
  | .message _ | .status _ => none

/-- The orders that arrive with an event. -/
def PaymentEvent.orders : PaymentEvent → List Json
  | .message raw => ((onMessage raw).getD []).filterMap Notice.order
  | _ => []

/-- The socket opens. -/
def PaymentEvent.isOpened : PaymentEvent → Bool
  | .opened => true
  | _ => false

/-- What was done with an order. -/
inductive Outcome
  /-- It was refused. -/
  | refused (msg : Json) (msgId : JsString)
  /-- It was charged, at a reading of the clock. -/
  | charged (order : PendingOrder) (msgId : JsString) (now : ℕ)

namespace Outcome

/-- The event. -/
def msg : Outcome → Json
  | refused msg _ => msg
  | charged order _ _ => order.msg

/-- What was called. -/
def calls (maxAmount : Option JsNumber) : Outcome → List Call
  | refused _ msgId => [.nack msgId]
  | charged order msgId now =>
    [.ack msgId, .publish (order.topic maxAmount) (order.result maxAmount now)]

/-- It is what the handler was to do. -/
def Sound : Outcome → Prop
  | refused msg msgId => Reaction.ofEvent msg = .refuse msgId
  | charged order msgId _ =>
    Reaction.ofEvent order.msg = .process order ∧ template order.msgId = some msgId

end Outcome

namespace PaymentService

variable {maxAmount : Option JsNumber} {p q : PaymentService} {e : PaymentEvent}
  {es : List PaymentEvent} {received : List Json} {done : List Outcome} {openings : ℕ}

/-- What came of the orders that were received. -/
structure Accounted (maxAmount : Option JsNumber) (p : PaymentService) (received : List Json)
    (done : List Outcome) (openings : ℕ) : Prop where
  /-- What was done was to be done. -/
  sound : ∀ o ∈ done, o.Sound
  /-- So is what is going to be done. -/
  pending : ∀ order ∈ p.pending, Reaction.ofEvent order.msg = .process order
  /-- Each order is done with, or waits, or its handler threw. -/
  perm : received.Perm (done.map Outcome.msg ++ (p.pending.map PendingOrder.msg ++ p.rejected))
  /-- The client was called for what was done, and for nothing else; each socket that opened got the
  subscription. -/
  called : p.gw.Called greeting (done.flatMap (Outcome.calls maxAmount)) openings

theorem accounted_create : Accounted maxAmount create [] [] 0 :=
  ⟨by simp, by simp [create], by simp [create], .create⟩

/-- The handler keeps the event that it was called with. -/
theorem msg_of_process {msg : Json} {order : PendingOrder}
    (h : Reaction.ofEvent msg = .process order) : order.msg = msg := by
  have hrefuse : ∀ x : Option JsString, x.elim .throw .refuse ≠ Reaction.process order := by
    rintro (_ | _) <;> simp
  unfold Reaction.ofEvent at h
  dsimp only at h
  split_ifs at h
  split at h
  · split_ifs at h
    · exact absurd h (hrefuse _)
    · rw [← Reaction.process.inj h]
  · exact absurd h (hrefuse _)

/-- The handler ignores what is no order, and nothing else. -/
theorem ofEvent_eq_ignore {msg : Json} : Reaction.ofEvent msg = .ignore ↔ isOrder msg = false := by
  have hrefuse : ∀ x : Option JsString, x.elim .throw .refuse ≠ Reaction.ignore := by
    rintro (_ | _) <;> simp
  cases h : isOrder msg with
  | false => simp [Reaction.ofEvent, show isString _ _ = false from h]
  | true =>
    refine iff_of_false (fun hignore => ?_) (by simp)
    unfold Reaction.ofEvent at hignore
    dsimp only at hignore
    rw [show isString _ _ = true from h] at hignore
    simp only [Bool.not_true, Bool.false_eq_true, if_false] at hignore
    split at hignore
    · split_ifs at hignore
      exact absurd hignore (hrefuse _)
    · exact absurd hignore (hrefuse _)

/-- One more, in the middle. -/
theorem perm_insert {α : Type} {A B received : List α} (h : received.Perm (A ++ B)) (x : α) :
    (received ++ [x]).Perm (A ++ x :: B) :=
  (List.perm_append_singleton x received).trans ((h.cons x).trans List.perm_middle.symm)

/-- The handler of an event accounts for it. -/
theorem Accounted.onEvent (h : Accounted maxAmount p received done openings) (msg : Json) :
    ∃ done', Accounted maxAmount (p.onEvent msg)
      (received ++ (Notice.event msg).order.toList) done' openings := by
  have horder : Reaction.ofEvent msg ≠ .ignore → (Notice.event msg).order.toList = [msg] := by
    intro hne
    have : isOrder msg = true := by
      by_contra hnot
      exact hne (ofEvent_eq_ignore.mpr (Bool.eq_false_iff.mpr hnot))
    simp [Notice.order, this]
  unfold PaymentService.onEvent
  cases hreaction : Reaction.ofEvent msg with
  | ignore =>
    refine ⟨done, ?_⟩
    simpa [Notice.order, ofEvent_eq_ignore.mp hreaction] using h
  | refuse msgId =>
    rw [horder (by simp [hreaction])]
    refine ⟨done ++ [.refused msg msgId], ?_, h.pending, ?_, ?_⟩
    · exact List.forall_mem_append.mpr ⟨h.sound, by simpa [Outcome.Sound] using hreaction⟩
    · simpa [Outcome.msg, call] using perm_insert h.perm msg
    · rw [List.flatMap_append, List.flatMap_singleton]
      exact h.called.send (.nack msgId)
  | process order =>
    rw [horder (by simp [hreaction])]
    have hmsg := msg_of_process hreaction
    refine ⟨done, h.sound, ?_, ?_, h.called⟩
    · refine List.forall_mem_append.mpr ⟨h.pending, ?_⟩
      simpa [hmsg] using hreaction
    · have hperm := perm_insert
        (A := done.map Outcome.msg ++ p.pending.map PendingOrder.msg) (by simpa using h.perm) msg
      simpa [hmsg] using hperm
  | throw =>
    rw [horder (by simp [hreaction])]
    refine ⟨done, h.sound, h.pending, ?_, h.called⟩
    simpa using h.perm.append_right [msg]

/-- So do the handlers of all that one message makes the client emit. -/
theorem Accounted.onNotices (h : Accounted maxAmount p received done openings)
    (notices : List Notice) :
    ∃ done', Accounted maxAmount (notices.foldl onNotice p)
      (received ++ notices.filterMap Notice.order) done' openings := by
  induction notices generalizing p received done with
  | nil => exact ⟨done, by simpa using h⟩
  | cons notice notices ih =>
    have hone : ∃ done', Accounted maxAmount (p.onNotice notice)
        (received ++ notice.order.toList) done' openings := by
      cases notice with
      | event msg => exact h.onEvent msg
      | message msg | status s => exact ⟨done, by simpa [Notice.order, onNotice] using h⟩
    obtain ⟨done', h'⟩ := hone
    obtain ⟨done'', h''⟩ := ih h'
    refine ⟨done'', ?_⟩
    have hsplit : (notice :: notices).filterMap Notice.order =
        notice.order.toList ++ notices.filterMap Notice.order := by
      cases hnotice : notice.order <;> simp [hnotice]
    rw [hsplit, ← List.append_assoc]
    exact h''

/-- So does a handler that goes on after its timer. -/
theorem Accounted.charge (h : Accounted maxAmount p received done openings) {i : ℕ}
    {order : PendingOrder} (hi : p.pending[i]? = some order) (now : ℕ) :
    ∃ done', Accounted maxAmount
      (PaymentService.charge maxAmount { p with pending := p.pending.eraseIdx i } now order)
      received done' openings := by
  obtain ⟨hlt, rfl⟩ := List.getElem?_eq_some_iff.mp hi
  have hreaction := h.pending p.pending[i] (List.getElem_mem hlt)
  have hpending : ∀ order ∈ p.pending.eraseIdx i, Reaction.ofEvent order.msg = .process order :=
    fun order horder => h.pending order (List.mem_of_mem_eraseIdx horder)
  -- The order is no longer among those that wait.
  have hmoved : (p.pending.map PendingOrder.msg).Perm
      (p.pending[i].msg :: (p.pending.eraseIdx i).map PendingOrder.msg) := by
    rw [← List.map_cons]
    exact (List.getElem_cons_eraseIdx_perm hlt).symm.map _
  have hperm := h.perm.trans ((hmoved.append_right p.rejected).append_left (done.map Outcome.msg))
  unfold PaymentService.charge
  cases hmsgId : template p.pending[i].msgId with
  | none =>
    refine ⟨done, h.sound, hpending, hperm.trans (List.Perm.append_left _ ?_), h.called⟩
    rw [List.cons_append, ← List.append_assoc]
    exact (List.perm_append_singleton _ _).symm
  | some msgId =>
    refine ⟨done ++ [.charged p.pending[i] msgId now], ?_, hpending, ?_, ?_⟩
    · refine List.forall_mem_append.mpr ⟨h.sound, ?_⟩
      simpa [Outcome.Sound] using ⟨hreaction, hmsgId⟩
    · simpa [Outcome.msg, call] using hperm
    · rw [List.flatMap_append, List.flatMap_singleton]
      have hcalled := (h.called.send (.ack msgId)).send
        (.publish (p.pending[i].topic maxAmount) (p.pending[i].result maxAmount now))
      simpa [Outcome.calls, call] using hcalled

/-- Every event accounts for the orders that arrive with it. -/
theorem Accounted.step (h : Accounted maxAmount p received done openings)
    (hstep : p.step maxAmount e = some q) :
    ∃ done', Accounted maxAmount q (received ++ e.orders) done'
      (openings + [e].countP PaymentEvent.isOpened) := by
  -- The connection changes.
  have hgw : ∀ {gw : GatewayClient} {n : ℕ},
      gw.Called greeting (done.flatMap (Outcome.calls maxAmount)) n →
      Accounted maxAmount { p with gw } (received ++ []) done n := by
    intro gw n hcalled
    rw [List.append_nil]
    exact ⟨h.sound, h.pending, h.perm, hcalled⟩
  unfold PaymentService.step at hstep
  have hrunning : ¬p.exited = true := by
    intro hexited
    rw [if_pos hexited] at hstep
    cases hstep
  rw [if_neg hrunning] at hstep
  cases e with
  | connect | closing | closed =>
    obtain ⟨gw, hgwstep, rfl⟩ := Option.map_eq_some_iff.mp hstep
    exact ⟨done, hgw (h.called.step hgwstep rfl rfl)⟩
  | opened =>
    obtain ⟨gw, hgwstep, rfl⟩ := Option.map_eq_some_iff.mp hstep
    exact ⟨done, hgw (h.called.opened hgwstep)⟩
  | message raw =>
    dsimp only at hstep
    split_ifs at hstep
    cases hmessage : onMessage raw with
    | none =>
      rw [hmessage] at hstep
      obtain rfl := Option.some.inj hstep
      refine ⟨done, ?_⟩
      simpa [PaymentEvent.orders, PaymentEvent.isOpened, hmessage] using
        (⟨h.sound, h.pending, h.perm, h.called⟩ :
          Accounted maxAmount { p with exited := true } received done openings)
    | some notices =>
      rw [hmessage] at hstep
      obtain rfl := Option.some.inj hstep
      simpa [PaymentEvent.orders, PaymentEvent.isOpened, hmessage] using h.onNotices notices
  | timeout i now =>
    obtain ⟨order, hi, rfl⟩ := Option.map_eq_some_iff.mp hstep
    simpa [PaymentEvent.orders, PaymentEvent.isOpened] using h.charge hi now

/-- In every run of the service, over any number of sockets and with any number of orders at a time:
each order that it received has been refused once, or charged once, or waits for its timer, or its
handler threw. Apart from its subscription, what the service has written to all sockets, one after
the other, and what waits for the next, are the answers to the orders that were refused or charged,
and the results of these, each result right after its answer. The subscription was written once for
each time that a socket opened. -/
theorem orders_accounted (hrun : Run (step maxAmount) (fun _ _ => True) create es p) :
    ∃ done : List Outcome, (∀ o ∈ done, o.Sound) ∧
      (es.flatMap PaymentEvent.orders).Perm
        (done.map Outcome.msg ++ (p.pending.map PendingOrder.msg ++ p.rejected)) ∧
      ∃ log : List Entry, p.gw.written = log.map Entry.msg ∧
        log.filterMap Entry.ownMsg ++ p.gw.pendingQueue =
          (done.flatMap (Outcome.calls maxAmount)).map Call.message ∧
        log.filterMap Entry.greetingMsg =
          (List.replicate (es.countP PaymentEvent.isOpened) greeting).flatten := by
  have haccounted : ∃ done, Accounted maxAmount p (es.flatMap PaymentEvent.orders) done
      (es.countP PaymentEvent.isOpened) := by
    induction hrun with
    | nil => exact ⟨[], accounted_create⟩
    | snoc _ _ hstep ih =>
      obtain ⟨done, h⟩ := ih
      rw [List.flatMap_append, List.flatMap_singleton, List.countP_append]
      exact h.step hstep
  obtain ⟨done, h⟩ := haccounted
  exact ⟨done, h.sound, h.perm, h.called.exists_log⟩

/-- An order without an amount is refused while another one waits for its timer. -/
def twoOrders : List PaymentEvent :=
  [.connect, .opened,
    .message (ascii "\x7b\"type\":\"event\",\"topic\":\"order.created\",\"msgId\":\"7\",
      \"body\":\x7b\"orderId\":\"A\",\"total\":250000\x7d\x7d"),
    .message (ascii "\x7b\"type\":\"event\",\"topic\":\"order.created\",\"msgId\":\"8\",
      \"body\":\x7b\"orderId\":\"B\"\x7d\x7d"),
    .timeout 0 1000]

/-- Both are done with, and the socket got the subscription. -/
theorem orders_accounted_twoOrders :
    ∃ p, exec (step (some (.finite 200000))) create twoOrders = some p ∧ p.pending = [] ∧
      p.rejected = [] ∧ (twoOrders.flatMap PaymentEvent.orders).length = 2 ∧
      ∃ done : List Outcome, (∀ o ∈ done, o.Sound) ∧
        (twoOrders.flatMap PaymentEvent.orders).Perm (done.map Outcome.msg) ∧
        ∃ log : List Entry, p.gw.written = log.map Entry.msg ∧
          log.filterMap Entry.greetingMsg = greeting := by
  obtain ⟨p, hexec, hend⟩ := (Option.any_eq_true _ _).mp
    (show (exec (step (some (.finite 200000))) create twoOrders).any (fun p =>
      p.pending.isEmpty && p.rejected.isEmpty) = true by decide +kernel)
  obtain ⟨hpending, hrejected⟩ := Bool.and_eq_true_iff.mp hend
  rw [List.isEmpty_iff] at hpending hrejected
  obtain ⟨done, hsound, hperm, log, hwritten, -, hgreeting⟩ := orders_accounted (run_of_exec hexec)
  rw [hpending, hrejected] at hperm
  exact ⟨p, hexec, hpending, hrejected, by decide +kernel, done, hsound, by simpa using hperm, log,
    hwritten, hgreeting⟩

end PaymentService

end EventQueue.Services
