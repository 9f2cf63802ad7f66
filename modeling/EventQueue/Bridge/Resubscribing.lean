import EventQueue.Bridge.Relaying
import EventQueue.Gateway.Sessions

/-!
# What goes over one connection of the gateway

A connection carries the topics of the clients that had not closed when it came up, without their
groups; the subscriptions that were waiting; and those that have been requested since. `Informed`
says that this is all, and that nothing is missing. What was waiting was requested while there was
no connection, all of it unless the queue has become full (`Queued`). `exists_cameUp` finds, in a
run at whose end there is a connection, where it came up and how long there was none before.
-/

namespace EventQueue.Bridge

open Broker (subscriptions)
open Gateway (Ws WsServer ClientMessage)
open Transition (Run)

variable {cfg : Config} {s t u v : State} {a : Action} {as : List Action}
  {bas bas' : List Broker.Action} {rs : List (Ws × JsString × JsString)}
  {ok : State → Action → Prop}

/-! ## Clients that have not closed -/

/-- A client had requested a subscription, and had not closed. -/
def State.Standing (s : State) (w : Ws) (p g : JsString) : Prop :=
  (w, p, g) ∈ s.requests ∧ s.ws.sockets[w]? ≠ some .CLOSED

/-- What the gateway remembers of its clients until they have closed. -/
structure Remembered (s : State) : Prop where
  /-- The two maps belong together, and a client that has closed is in neither. -/
  tracked : s.ws.Tracked
  /-- What a client that has not closed has requested is there. -/
  kept : ∀ w p g, s.Standing w p g → s.ws.Has w p

theorem remembered_start {file : Bytes} {order : List Broker.Message}
    (h : State.start cfg file order = some s) : Remembered s := by
  obtain ⟨broker, -, rfl⟩ := Option.map_eq_some_iff.mp h
  refine ⟨WsServer.tracked_create, ?_⟩
  rintro w p g ⟨hmem, -⟩
  cases hmem

/-- Every step keeps it. -/
theorem Remembered.step (hs : Remembered s) (hserved : Served cfg s)
    (h : s.step cfg a = some t) : Remembered t := by
  have hmoves : ∀ {e ws}, WsServer.Moves cfg.ringSize s.ws e ws → ws.Tracked :=
    fun hmove => hs.tracked.moves hmove
  cases step_serves h with
  | nothing ha hws hrequests | other ha f dispatch frames hframes htype hws hrequests =>
    refine ⟨hws ▸ hs.tracked, ?_⟩
    unfold State.Standing
    rw [hws, hrequests]
    exact hs.kept
  | connected ha hws hrequests =>
    refine ⟨hws ▸ hmoves .connection, ?_⟩
    rintro w p g ⟨hmem, hclosed⟩
    rw [hrequests] at hmem
    rw [hws] at hclosed ⊢
    -- The client was there before the new one, and its entries are the same.
    have hsame : s.ws.connection.sockets[w]? = s.ws.sockets[w]? :=
      List.getElem?_append_left (hserved.known w p g hmem)
    rw [hsame] at hclosed
    exact (hs.tracked.indexed.connection.inverse w p).mpr
      ((hs.tracked.indexed.inverse w p).mp (hs.kept w p g ⟨hmem, hclosed⟩))
  | subscribed w topic group topics ha htopic hlookup hws hrequests =>
    refine ⟨hws ▸ hmoves (.tracked w .invalid topic topics hlookup), ?_⟩
    rintro w' p g ⟨hmem, hclosed⟩
    rw [hws] at hclosed ⊢
    rw [WsServer.has_track hlookup]
    rcases List.mem_append.mp (hrequests ▸ hmem) with hmem | hmem
    · exact .inl (hs.kept w' p g ⟨hmem, hclosed⟩)
    · obtain ⟨rfl, rfl, rfl⟩ : w' = w ∧ p = topic ∧ g = group := by simpa using hmem
      exact .inr ⟨rfl, rfl⟩
  | closing w ha hws hrequests =>
    have hopen : s.ws.isOpen w = true := by
      subst ha
      simp only [State.step] at h
      split_ifs at h with hcond
      exact (Bool.and_eq_true_iff.mp hcond).2
    refine ⟨hws ▸ hmoves (.closing w hopen), ?_⟩
    rintro w' p g ⟨hmem, hclosed⟩
    rw [hrequests] at hmem
    rw [hws] at hclosed ⊢
    refine hs.kept w' p g ⟨hmem, fun hwas => hclosed ?_⟩
    -- What was closed was not open.
    have hne : w ≠ w' := by
      rintro rfl
      simp [WsServer.isOpen, hwas] at hopen
    simpa [WsServer.closing, List.getElem?_set, hne] using hwas
  | closed w ha hws hrequests =>
    have hlt : w < s.ws.sockets.length := by
      subst ha
      simp only [State.step] at h
      split_ifs at h with hcond
      exact of_decide_eq_true (Bool.and_eq_true_iff.mp hcond).2
    refine ⟨hws ▸ hmoves (.close w hlt), ?_⟩
    rintro w' p g ⟨hmem, hclosed⟩
    rw [hrequests] at hmem
    rw [hws] at hclosed ⊢
    have hne : w ≠ w' := by
      rintro rfl
      simp [WsServer.close, WsServer.cleanupClient, hlt] at hclosed
    have hwas : s.ws.sockets[w']? ≠ some .CLOSED := by
      simpa [WsServer.close, WsServer.cleanupClient, List.getElem?_set, hne] using hclosed
    exact WsServer.has_cleanupClient.mpr ⟨hs.kept w' p g ⟨hmem, hwas⟩, hne.symm⟩
  | event f dispatch frames ha hframes htype hws hrequests =>
    rw [WsServer.dispatchEvent_fst] at hws
    refine ⟨hws ▸ hmoves (.dispatch _ f.msgId []), ?_⟩
    unfold State.Standing
    rw [hws, hrequests]
    exact hs.kept

/-- The topics of the table are those that clients had requested which had not closed. -/
theorem Remembered.mem_keys (hs : Remembered s) (hserved : Served cfg s) {p : JsString} :
    p ∈ s.ws.topicClients.keys ↔ ∃ w g, s.Standing w p g := by
  rw [← AList.mem_keys, ← AList.lookup_isSome, Option.isSome_iff_exists]
  constructor
  · rintro ⟨clients, hclients⟩
    obtain ⟨w, hw⟩ := List.exists_mem_of_ne_nil _ (hs.tracked.inhabited p clients hclients)
    have hhas := (hs.tracked.indexed.inverse w p).mpr ⟨clients, hclients, hw⟩
    obtain ⟨g, hmem⟩ := hserved.requested w p hhas
    refine ⟨w, g, hmem, fun hclosed => ?_⟩
    obtain ⟨topics, htopics, -⟩ := hhas
    rw [hs.tracked.gone w hclosed] at htopics
    cases htopics
  · rintro ⟨w, g, hstanding⟩
    obtain ⟨clients, hclients, -⟩ :=
      (hs.tracked.indexed.inverse w p).mp (hs.kept w p g hstanding)
    exact ⟨clients, hclients⟩

/-! ## What a step tells -/

/-- The subscriptions that some requests ask for. -/
def subscriptionsOf (rs : List (Ws × JsString × JsString)) : List (Bytes × Bytes) :=
  rs.map fun r => (r.2.1.toUtf8, r.2.2.toUtf8)

theorem mem_subscriptionsOf {sub : Bytes × Bytes} :
    sub ∈ subscriptionsOf rs ↔ ∃ w p g, (w, p, g) ∈ rs ∧ sub = (p.toUtf8, g.toUtf8) := by
  simp only [subscriptionsOf, List.mem_map, Prod.exists, eq_comm]

/-- The subscriptions of the frames that wait for a connection. -/
def State.waiting (s : State) : List (Bytes × Bytes) := s.tcp.outQueue.filterMap subscriptionOf

/-- What a step that requests some subscriptions has done with them. -/
structure Tells (bas : List Broker.Action) (s : State) (bas' : List Broker.Action) (t : State)
    (rs : List (Ws × JsString × JsString)) : Prop where
  /-- They have been requested. -/
  requests : t.requests = s.requests ++ rs
  /-- They have gone over the connection that is up. -/
  sent : ∀ n, t.link = some n → t.tcp.connected = true → t.tcp.destroyed = false →
    s.link = some n ∧ s.tcp.destroyed = false ∧
      ∀ sub, sub ∈ t.sent bas' n ↔ sub ∈ s.sent bas n ∨ sub ∈ subscriptionsOf rs
  /-- Nothing else waits now. -/
  waiting : ∀ sub ∈ t.waiting, sub ∈ s.waiting ∨ sub ∈ subscriptionsOf rs
  /-- While there is no connection, they wait, unless the process has ended or the queue has become
  full. -/
  waits : s.tcp.connected = false → t.crashed = false →
    t.tcp.outQueue.length < Gateway.OUT_QUEUE_MAX →
    s.crashed = false ∧ s.tcp.outQueue.length < Gateway.OUT_QUEUE_MAX ∧
      ∀ sub, sub ∈ s.waiting ∨ sub ∈ subscriptionsOf rs → sub ∈ t.waiting
  /-- While there is one, nothing has to wait. -/
  direct : s.tcp.connected = true → t.tcp.outQueue = s.tcp.outQueue

/-- A quiet step tells nothing. -/
theorem Quiet.tells (h : Quiet bas s bas' t) : Tells bas s bas' t [] where
  requests := by rw [h.requests, List.append_nil]
  sent n hn _ hdestroyed := by
    obtain ⟨hwas, -, halive, hsent⟩ := h.link n hn
    exact ⟨hwas, halive hdestroyed, by simp [hsent, subscriptionsOf]⟩
  waiting sub hsub := by
    rw [State.waiting, h.queue] at hsub
    exact .inl hsub
  waits _ hcrashed hroom := by
    rw [h.queue] at hroom
    refine ⟨h.crashed.symm.trans hcrashed, hroom, fun sub hsub => ?_⟩
    rw [State.waiting, h.queue]
    exact hsub.resolve_right (by simp [subscriptionsOf])
  direct _ := h.queue

/-- Frames that are sent tell the subscriptions that they make. If a handler throws, it has ended
the connection and the process, and the frames may fall short. -/
theorem Sends.tells {frames : List Bytes} {tcp : Gateway.TcpView} {up : ℕ → List Bytes}
    (hsends : Sends s frames tcp up) (made : Prop) (htcp : t.tcp = tcp) (hup : t.up = up)
    (hrequests : t.requests = s.requests ++ rs)
    (hasked : ∀ sub ∈ frames.filterMap subscriptionOf, sub ∈ subscriptionsOf rs)
    (hmade : made → ∀ sub ∈ subscriptionsOf rs, sub ∈ frames.filterMap subscriptionOf)
    (hlink : ∀ n, t.link = some n → s.link = some n ∧ made)
    (hcrashed : t.crashed = false → s.crashed = false ∧ made) : Tells bas s bas t rs where
  requests := hrequests
  sent n hn hconnected hdestroyed := by
    obtain ⟨hwas, hall⟩ := hlink n hn
    rw [htcp] at hconnected hdestroyed
    have halive : s.tcp.destroyed = false := hsends.destroyed.symm.trans hdestroyed
    refine ⟨hwas, halive, fun sub => ?_⟩
    have hwritten := hsends.written n hwas (hsends.connected.symm.trans hconnected) halive
    rw [State.sent, State.sent, hup, hwritten, List.filterMap_append, ← List.append_assoc,
      List.mem_append]
    exact or_congr_right ⟨hasked sub, hmade hall sub⟩
  waiting sub hsub := by
    rw [State.waiting, htcp] at hsub
    obtain ⟨b, hb, hmakes⟩ := List.mem_filterMap.mp hsub
    rcases hsends.queued b hb with hb | hb
    · exact .inl (List.mem_filterMap.mpr ⟨b, hb, hmakes⟩)
    · exact .inr (hasked sub (List.mem_filterMap.mpr ⟨b, hb, hmakes⟩))
  waits hdown hrunning hroom := by
    obtain ⟨hwas, hall⟩ := hcrashed hrunning
    rw [htcp] at hroom
    have hqueue := hsends.waits hdown hroom
    refine ⟨hwas, lt_of_le_of_lt (by simp [hqueue]) hroom, fun sub hsub => ?_⟩
    rw [State.waiting, htcp, hqueue, List.filterMap_append, List.mem_append]
    exact hsub.imp_right (hmade hall sub)
  direct hconnected := by
    rw [htcp]
    exact hsends.direct hconnected

/-- A client's message ends the process when its handler throws. -/
theorem crashed_of_wsMessage {w : Ws} {m : ClientMessage}
    (h : s.step cfg (.wsMessage w m) = some t) :
    t.crashed = (s.crashed || (s.ws.handleMessage w m).threw) := by
  simp only [State.step] at h
  split_ifs at h
  obtain rfl := Option.some.inj h
  obtain ⟨tcp, up, heq, -⟩ := State.foldl_send_eq (s.ws.handleMessage w m).frames
    { s with
      requests := s.requests ++ s.requested w m
      acks := s.acks ++ State.acknowledged m
      ws := (s.ws.handleMessage w m).server }
  rw [State.turn, heq]
  cases hthrew : (s.ws.handleMessage w m).threw <;> simp

/-- What every step tells, but that in which a connection comes up. -/
theorem exists_tells (hs : Relayed bas s) (ha : a ≠ .connect) (h : s.step cfg a = some t) :
    ∃ rs, Tells bas s (bas ++ (s.brokerAction a).toList) t rs := by
  cases a with
  | connect => exact absurd rfl ha
  | dial sock =>
    obtain ⟨hdown, broker, -, rfl⟩ := step_dial_eq h
    refine ⟨[], (List.append_nil _).symm, fun n _ hconnected => ?_, fun sub hsub => .inl hsub,
      fun _ hcrashed hroom => ⟨hcrashed, hroom, fun sub hsub => ?_⟩, fun _ => rfl⟩
    · rw [hdown] at hconnected
      cases hconnected
    · exact hsub.resolve_right (by simp [subscriptionsOf])
  | wsMessage w m =>
    have hcrashed := crashed_of_wsMessage h
    obtain ⟨tcp, up, crashed, hsends, rfl⟩ := step_wsMessage_eq h
    simp only [State.brokerAction, Option.toList_none, List.append_nil]
    refine ⟨s.requested w m, hsends.tells ((s.ws.handleMessage w m).threw = false) rfl rfl rfl
      ?_ ?_ (fun n hn => ?_) (fun hrunning => ?_)⟩
    · intro sub hsub
      obtain ⟨b, hb, hmakes⟩ := List.mem_filterMap.mp hsub
      rcases frames_handleMessage s w m with ⟨-, hplain⟩ | ⟨topic, group, hone, -, hframes⟩
      · rw [(hplain b hb).2] at hmakes
        cases hmakes
      · rcases hframes with ⟨hempty, -⟩ | ⟨b', hb', hsub'⟩
        · rw [hempty] at hb
          cases hb
        · obtain rfl : b = b' := by simpa [hb'] using hb
          obtain rfl := Option.some.inj (hsub'.2.symm.trans hmakes)
          exact mem_subscriptionsOf.mpr ⟨w, topic, group, by simp [hone], rfl⟩
    · intro hreturned sub hsub
      obtain ⟨w', p, g, hmem, rfl⟩ := mem_subscriptionsOf.mp hsub
      rcases frames_handleMessage s w m with ⟨hnone, -⟩ | ⟨topic, group, hone, -, hframes⟩
      · rw [hnone] at hmem
        cases hmem
      · rcases hframes with ⟨-, hthrew⟩ | ⟨b, hb, hmakes⟩
        · rw [hreturned] at hthrew
          cases hthrew
        · obtain ⟨rfl, rfl, rfl⟩ : w' = w ∧ p = topic ∧ g = group := by simpa [hone] using hmem
          simp [hb, hmakes.2]
    · dsimp only at hn
      split_ifs at hn with hthrew
      exact ⟨hn, Bool.eq_false_iff.mpr hthrew⟩
    · rw [hrunning] at hcrashed
      exact Bool.or_eq_false_iff.mp hcrashed.symm
  | heartbeat =>
    simp only [State.step] at h
    split_ifs at h
    obtain ⟨frame, hframe, rfl⟩ := Option.map_eq_some_iff.mp h
    obtain ⟨tcp, up, heq, hsends⟩ := s.send_eq frame
    have hplain := plain_of_header .heartbeat (by decide) (by decide) hframe
    simp only [State.brokerAction, Option.toList_none, List.append_nil]
    rw [heq]
    refine ⟨[], hsends.tells True rfl rfl (List.append_nil _).symm ?_ ?_
      (fun n hn => ⟨hn, trivial⟩) (fun hrunning => ⟨hrunning, trivial⟩)⟩
    · simp [hplain.2]
    · simp [subscriptionsOf]
  | broker | upstream | data | close | handle | wsConnect | wsClosing | wsClose | stats =>
    exact ⟨[], (quiet_of_step hs rfl h).tells⟩

/-- Whether there is a connection after an action. -/
def Action.connects (connected : Bool) : Action → Bool
  | .connect => true
  | .close => false
  | _ => connected

/-- Only `connect` and `close` change it. -/
theorem connected_of_step (h : s.step cfg a = some t) :
    t.tcp.connected = a.connects s.tcp.connected := by
  cases a with
  | broker b =>
    obtain ⟨⟨broker, down, -, rfl⟩, -⟩ := step_broker_eq h
    rfl
  | dial sock =>
    obtain ⟨-, broker, -, rfl⟩ := step_dial_eq h
    rfl
  | upstream n =>
    obtain ⟨bytes, rest, broker, down, -, -, rfl⟩ := step_upstream_eq h
    rfl
  | connect =>
    obtain ⟨-, tcp, up, crashed, hsends, rfl⟩ := step_connect_eq h
    exact hsends.connected
  | wsMessage w m =>
    obtain ⟨tcp, up, crashed, hsends, rfl⟩ := step_wsMessage_eq h
    exact hsends.connected
  | heartbeat =>
    simp only [State.step] at h
    split_ifs at h
    obtain ⟨frame, -, rfl⟩ := Option.map_eq_some_iff.mp h
    obtain ⟨tcp, up, heq, hsends⟩ := s.send_eq frame
    rw [heq]
    exact hsends.connected
  | handle =>
    simp only [State.step] at h
    split at h
    · cases h
    · rename_i f dispatch frames hframes
      obtain rfl := Option.some.inj h
      obtain ⟨ws, handled, accepted, heq⟩ := onFrame_eq cfg { s with frames } f dispatch
      rw [heq]
      rfl
  | data k =>
    simp only [State.step] at h
    split_ifs at h
    obtain rfl := Option.some.inj h
    simp only [Gateway.TcpView.data]
    split_ifs <;> rfl
  | close | wsConnect | wsClosing | wsClose | stats =>
    simp only [State.step] at h
    split_ifs at h
    obtain rfl := Option.some.inj h
    rfl

/-- A connection comes up in `connect` only. -/
theorem eq_connect_of_step (h : s.step cfg a = some t) (hdown : s.tcp.connected = false)
    (hup : t.tcp.connected = true) : a = .connect := by
  have hsame := connected_of_step h
  rw [hup] at hsame
  cases a with
  | connect => rfl
  | close => cases hsame
  | _ => exact absurd (hsame.trans hdown) (Ne.symm Bool.false_ne_true)

/-- It ends in `close` only. -/
theorem eq_close_of_step (h : s.step cfg a = some t) (hup : s.tcp.connected = true)
    (hdown : t.tcp.connected = false) : a = .close := by
  have hsame := connected_of_step h
  rw [hdown] at hsame
  cases a with
  | close => rfl
  | connect => cases hsame
  | _ => exact absurd (hsame.trans hup) Bool.false_ne_true

/-! ## While there is no connection -/

/-- What waits has been requested since `v`, and all of that waits, unless the queue has become
full. -/
structure Queued (v u : State) : Prop where
  /-- The requests before are still there. -/
  requests : v.requests <+: u.requests
  /-- Nothing else waits. -/
  asked : ∀ sub ∈ u.waiting, sub ∈ subscriptionsOf (u.requests.drop v.requests.length)
  /-- Everything waits. -/
  all : u.crashed = false → u.tcp.outQueue.length < Gateway.OUT_QUEUE_MAX →
    ∀ sub ∈ subscriptionsOf (u.requests.drop v.requests.length), sub ∈ u.waiting

/-- The requests that have come after some others. -/
theorem subscriptionsOf_drop {earlier requests : List (Ws × JsString × JsString)}
    (rs : List (Ws × JsString × JsString)) (hearlier : earlier <+: requests) :
    subscriptionsOf ((requests ++ rs).drop earlier.length) =
      subscriptionsOf (requests.drop earlier.length) ++ subscriptionsOf rs := by
  rw [List.drop_append_of_le_length hearlier.length_le]
  exact List.map_append

/-- At first nothing waits. -/
theorem queued_refl (hempty : v.tcp.outQueue = []) : Queued v v where
  requests := List.prefix_rfl
  asked := by simp [State.waiting, hempty]
  all := by simp [subscriptionsOf]

/-- Every step without a connection keeps it. -/
theorem Queued.step (h : Queued v s) (htells : Tells bas s bas' t rs)
    (hdown : s.tcp.connected = false) : Queued v t := by
  have hsplit := subscriptionsOf_drop rs h.requests
  rw [← htells.requests] at hsplit
  refine ⟨?_, fun sub hsub => ?_, fun hrunning hroom sub hsub => ?_⟩
  · rw [htells.requests]
    exact h.requests.trans (List.prefix_append _ _)
  · rw [hsplit, List.mem_append]
    exact (htells.waiting sub hsub).imp_left (h.asked sub)
  · obtain ⟨hwas, hroom', hall⟩ := htells.waits hdown hrunning hroom
    rw [hsplit, List.mem_append] at hsub
    exact hall sub (hsub.imp_left (h.all hwas hroom' sub))

/-- How a run came to the connection that is up at its end: from `v` on, where the one before was
closed or the run started, there was none, and in `u` this one came up. -/
inductive CameUp (cfg : Config) (ok : State → Action → Prop) (s : State) :
    List Action → State → State → Prop
  | mk {before between after : List Action} {v u : State}
      (hbefore : Run (State.step cfg) ok s before v)
      (hclosed : before = [] ∨ ∃ as v', before = as ++ [.close] ∧
        Run (State.step cfg) ok s as v' ∧ v'.tcp.connected = true)
      (hbetween : Run (State.step cfg) ok v between u) (hdown : .connect ∉ between)
      (hafter : .connect ∉ after) :
      CameUp cfg ok s (before ++ between ++ .connect :: after) v u

/-- The run may go on, as long as no other connection comes up. -/
theorem CameUp.snoc (h : CameUp cfg ok s as v u) (ha : a ≠ .connect) :
    CameUp cfg ok s (as ++ [a]) v u := by
  cases h with
  | mk hbefore hclosed hbetween hdown hafter =>
    rw [List.append_assoc, List.cons_append]
    refine .mk hbefore hclosed hbetween hdown ?_
    simpa [hafter] using Ne.symm ha

/-- Nothing waits when a connection has come up. -/
theorem outQueue_of_connect (h : s.step cfg .connect = some t) : t.tcp.outQueue = [] := by
  obtain ⟨-, tcp, up, crashed, hsends, rfl⟩ := step_connect_eq h
  exact hsends.direct rfl

/-- What a run keeps of what has gone over the gateway's connection. -/
theorem exists_relayed {file : Bytes} {order : List Broker.Message}
    (hstart : State.start cfg file order = some s) (hrun : Run (State.step cfg) ok s as t) :
    Served cfg t ∧ ∃ bas, Relayed bas t := by
  refine hrun.invariant (I := fun s => Served cfg s ∧ ∃ bas, Relayed bas s) ?_ ?_
  · rintro s a t ⟨hserved, bas, hrelayed⟩ - h
    exact ⟨hserved.step h, _, hrelayed.step hserved h⟩
  · exact ⟨served_start hstart, [], relayed_start hstart⟩

/-- A run without a connection at its end has had none from some point on, and what waits was
requested since. With one, nothing waits, and it came up somewhere. -/
theorem exists_cameUp {file : Bytes} {order : List Broker.Message}
    (hstart : State.start cfg file order = some s) (hrun : Run (State.step cfg) ok s as t) :
    (t.tcp.connected = false → ∃ before between v, as = before ++ between ∧
      Run (State.step cfg) ok s before v ∧ (before = [] ∨ ∃ as' v', before = as' ++ [.close] ∧
        Run (State.step cfg) ok s as' v' ∧ v'.tcp.connected = true) ∧
      Run (State.step cfg) ok v between t ∧ .connect ∉ between ∧ Queued v t) ∧
    (t.tcp.connected = true → t.tcp.outQueue = [] ∧
      ∃ v u u' after, CameUp cfg ok s as v u ∧ Queued v u ∧
        (∃ before, Run (State.step cfg) ok s before u) ∧ u.step cfg .connect = some u' ∧
        ok u .connect ∧ Run (State.step cfg) ok u' after t ∧ .connect ∉ after) := by
  induction hrun with
  | nil =>
    obtain ⟨broker, -, rfl⟩ := Option.map_eq_some_iff.mp hstart
    refine ⟨fun _ => ⟨[], [], _, rfl, .nil _, .inl rfl, .nil _, List.not_mem_nil,
      queued_refl rfl⟩, fun hconnected => by cases hconnected⟩
  | @snoc p t as a hrun hok h ih =>
    obtain ⟨hdown, hup⟩ := ih
    obtain ⟨-, bas, hrelayed⟩ := exists_relayed hstart hrun
    by_cases hconnect : a = .connect
    · -- The connection comes up here.
      subst hconnect
      obtain ⟨⟨-, -, hunconnected⟩, -⟩ := step_connect_eq h
      obtain ⟨before, between, v, rfl, hbefore, hclosed, hbetween, hnone, hqueued⟩ :=
        hdown hunconnected
      refine ⟨fun hno => ?_, fun _ => ⟨?_, ?_⟩⟩
      · rw [connected_of_step h] at hno
        cases hno
      · exact outQueue_of_connect h
      · exact ⟨v, p, t, [], .mk hbefore hclosed hbetween hnone List.not_mem_nil, hqueued,
          ⟨_, hrun⟩, h, hok, .nil _, List.not_mem_nil⟩
    · obtain ⟨rs, htells⟩ := exists_tells hrelayed hconnect h
      cases hp : p.tcp.connected with
      | true =>
        obtain ⟨hempty, v, u, u', after, hcame, hqueued, hreach, hstep, hoku, hafter, hnone⟩ :=
          hup hp
        have hempty' : t.tcp.outQueue = [] := (htells.direct hp).trans hempty
        refine ⟨fun hno => ?_, fun _ => ⟨hempty', ?_⟩⟩
        · -- It was closed here.
          obtain rfl := eq_close_of_step h hp hno
          exact ⟨_, [], t, (List.append_nil _).symm, .snoc hrun hok h, .inr ⟨_, p, rfl, hrun, hp⟩,
            .nil _, List.not_mem_nil, queued_refl hempty'⟩
        · have hnone' : .connect ∉ after ++ [a] := by
            simpa [hnone] using Ne.symm hconnect
          exact ⟨v, u, u', after ++ [a], hcame.snoc hconnect, hqueued, hreach, hstep, hoku,
            .snoc hafter hok h, hnone'⟩
      | false =>
        obtain ⟨before, between, v, rfl, hbefore, hclosed, hbetween, hnone, hqueued⟩ := hdown hp
        refine ⟨fun _ => ?_, fun hyes => ?_⟩
        · refine ⟨before, between ++ [a], v, List.append_assoc _ _ _, hbefore, hclosed,
            .snoc hbetween hok h, ?_, hqueued.step htells hp⟩
          simpa [hnone] using Ne.symm hconnect
        · exact absurd (eq_connect_of_step h hp hyes) hconnect

/-! ## Since a connection came up -/

/-- What goes over a connection when it comes up: the topics of the clients that have not closed,
without their groups, and what has waited. -/
def State.Greets (u : State) (sub : Bytes × Bytes) : Prop :=
  (∃ w p g, u.Standing w p g ∧ sub = (p.toUtf8, [])) ∨ sub ∈ u.waiting

/-- What has gone over a connection since it came up in `u`. -/
structure Informed (u : State) (bas : List Broker.Action) (t : State) : Prop where
  /-- The requests before are still there. -/
  requests : u.requests <+: t.requests
  /-- A client that had requested something and is open now was open then. -/
  isOpen : ∀ w p g, (w, p, g) ∈ u.requests → t.ws.isOpen w = true → u.ws.isOpen w = true
  /-- As long as the connection is there, all that was requested since has gone over it, and
  nothing else but what went over it at first. -/
  sent : ∀ n, t.link = some n → t.tcp.connected = true → t.tcp.destroyed = false → ∀ sub,
    sub ∈ t.sent bas n ↔
      u.Greets sub ∨ sub ∈ subscriptionsOf (t.requests.drop u.requests.length)

/-- The connection comes up. -/
theorem informed_of_connect (hs : Relayed bas u) (hserved : Served cfg u)
    (hremembered : Remembered u) (h : u.step cfg .connect = some t) : Informed u bas t := by
  have hnew := fun n => sent_of_connect (n := n) hs h
  obtain ⟨-, tcp, up, crashed, -, rfl⟩ := step_connect_eq h
  refine ⟨List.prefix_rfl, fun _ _ _ _ hopen => hopen, fun n hn _ _ sub => ?_⟩
  obtain ⟨hreturned, -, hsent⟩ := hnew n hn
  have htopics : ∀ p ∈ u.ws.topicClients.keys, p ≠ [] := by
    intro p hp
    obtain ⟨w, g, hmem, -⟩ := (hremembered.mem_keys hserved).mp hp
    exact hs.topics w p g hmem
  have hnone : subscriptionsOf (u.requests.drop u.requests.length) = [] := by
    rw [List.drop_length]
    rfl
  refine (hsent sub).trans ?_
  dsimp only
  rw [hnone]
  constructor
  · rintro ⟨b, hb, hmakes⟩
    rcases List.mem_append.mp hb with hb | hb
    · obtain ⟨p, hp, -, hsub⟩ := makes_of_mem_resubscribe htopics hb
      obtain rfl := Option.some.inj (hsub.symm.trans hmakes)
      obtain ⟨w, g, hstanding⟩ := (hremembered.mem_keys hserved).mp hp
      exact .inl (.inl ⟨w, p, g, hstanding, rfl⟩)
    · exact .inl (.inr (List.mem_filterMap.mpr ⟨b, hb, hmakes⟩))
  · rintro ((⟨w, p, g, hstanding, rfl⟩ | hwaits) | hnever)
    · have hp := (hremembered.mem_keys hserved).mpr ⟨w, g, hstanding⟩
      obtain ⟨b, hb, -, hmakes⟩ := exists_makes_of_resubscribe htopics hreturned hp
      exact ⟨b, List.mem_append_left _ hb, hmakes⟩
    · obtain ⟨b, hb, hmakes⟩ := List.mem_filterMap.mp hwaits
      exact ⟨b, List.mem_append_right _ hb, hmakes⟩
    · cases hnever

/-- Every other step keeps it. -/
theorem Informed.step (h : Informed u bas s) (hrelayed : Relayed bas s) (hserved : Served cfg s)
    (ha : a ≠ .connect) (hstep : s.step cfg a = some t) :
    Informed u (bas ++ (s.brokerAction a).toList) t := by
  obtain ⟨rs, htells⟩ := exists_tells hrelayed ha hstep
  refine ⟨?_, fun w p g hmem hopen => ?_, fun n hn hconnected hdestroyed sub => ?_⟩
  · rw [htells.requests]
    exact h.requests.trans (List.prefix_append _ _)
  · have hknown := hserved.known w p g (h.requests.subset hmem)
    exact h.isOpen w p g hmem ((step_serves hstep).isOpen hknown hopen)
  · obtain ⟨hwas, halive, hsent⟩ := htells.sent n hn hconnected hdestroyed
    -- There was a connection before, for only `connect` makes one.
    have hup : s.tcp.connected = true :=
      eq_true_of_ne_false fun hdown => ha (eq_connect_of_step hstep hdown hconnected)
    rw [hsent, h.sent n hwas hup halive, htells.requests, subscriptionsOf_drop rs h.requests,
      List.mem_append, or_assoc]

end EventQueue.Bridge
