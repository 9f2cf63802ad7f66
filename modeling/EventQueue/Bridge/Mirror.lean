import EventQueue.Bridge.Resubscribing

/-!
# The broker's view of the gateway

The broker holds subscriptions for the descriptor of the gateway's connection. When the connection
is up, and the broker has taken all that was sent over it, they are what the clients have requested,
up to two things. No frame takes a subscription back, so that those of closed clients stay until the
connection ends, but no longer. And the gateway keeps topics without their groups, so that a
connection that comes up starts with the topics' unique groups: whether the broker holds the group
that was named before, or the unique one, is left open by `subscriptions_mirrored`.
-/

namespace EventQueue.Bridge

open Broker (Conn)
open Broker.TopicRouter (groupKey)
open Gateway (Ws ClientMessage)
open Transition (Run exec execChecked run_of_execChecked)

variable {cfg : Config} {s t u : State} {a : Action} {as : List Action} {bas : List Broker.Action}
  {file : Bytes} {order : List Broker.Message}

/-- The connection is up, and the broker has taken everything that was sent over it. -/
structure State.Settled (s : State) (n : ℕ) (c : Conn) : Prop where
  /-- The gateway is connected. -/
  connected : s.tcp.connected = true
  /-- Its socket is not destroyed. -/
  alive : s.tcp.destroyed = false
  /-- It belongs to a connection of the broker. -/
  link : s.link = some n
  /-- That connection is there. -/
  conn : s.broker.conns[n]? = some c
  /-- It is open. -/
  isOpen : c.isOpen = true
  /-- Nothing is under way to it. -/
  taken : s.up n = []

/-- Nothing is under way any more: what has gone over the connection are the subscriptions that the
broker has taken from it. -/
theorem State.Settled.sent_eq {n : ℕ} {c : Conn} (h : s.Settled n c) :
    s.sent bas n = Broker.subscriptions n bas := by
  rw [State.sent, h.taken, List.filterMap_nil, List.append_nil]

/-- The broker accepts a descriptor only when no connection under it has still to erase or to
unsubscribe, and other clients of the broker send no ERROR_RESP. -/
def keepsDescriptors (s : State) : Action → Bool
  | .broker b => Broker.keepsRegistration s.broker b
  | .dial sock => Broker.acceptsReleased s.broker (.accept sock)
  | _ => true

/-- Then the broker keeps the registrations of all connections: the gateway sends no ERROR_RESP. -/
theorem Relayed.registered (hs : Relayed bas s) (hregistered : Broker.Registered bas s.broker)
    (hok : keepsDescriptors s a = true) (h : s.step cfg a = some t) :
    Broker.Registered (bas ++ (s.brokerAction a).toList) t.broker := by
  cases haction : s.brokerAction a with
  | none =>
    rw [(step_gateway_eq h haction).1]
    simpa using hregistered
  | some b =>
    refine hregistered.step ?_ (step_broker h haction)
    cases a with
    | broker b' =>
      obtain rfl := Option.some.inj haction
      exact hok
    | dial sock =>
      obtain rfl := Option.some.inj haction
      exact hok
    | upstream n =>
      obtain ⟨bytes, rest, broker, down, hup, -, -⟩ := step_upstream_eq h
      obtain rfl : frameAction n bytes = b := by simpa [State.brokerAction, hup] using haction
      have hpolite := (hs.up n bytes (hup ▸ List.mem_cons_self)).2
      simpa [Broker.keepsRegistration, Broker.sendsNoErrorResp, Broker.acceptsReleased, frameAction,
        polite] using hpolite
    | _ => cases haction

/-- What a run keeps. -/
theorem relayed_of_run (hstart : State.start cfg file order = some s)
    (hrun : Run (State.step cfg) (fun s a => keepsDescriptors s a = true) s as t) :
    (Served cfg t ∧ Remembered t) ∧ ∃ bas, Relayed bas t ∧ Broker.Registered bas t.broker := by
  refine hrun.invariant (I := fun s => (Served cfg s ∧ Remembered s) ∧ ∃ bas, Relayed bas s ∧
    Broker.Registered bas s.broker) ?_ ?_
  · rintro s a t ⟨⟨hserved, hremembered⟩, bas, hs, hregistered⟩ hok h
    exact ⟨⟨hserved.step h, hremembered.step hserved h⟩, _, hs.step hserved h,
      hs.registered hregistered hok h⟩
  · refine ⟨⟨served_start hstart, remembered_start hstart⟩, [], relayed_start hstart, ?_⟩
    obtain ⟨broker, hbroker, rfl⟩ := Option.map_eq_some_iff.mp hstart
    exact Broker.registered_of_start hbroker

/-- What it keeps of a connection, as long as no other one comes up. -/
theorem informed_of_run (hserved : Served cfg s) (hrelayed : Relayed bas s)
    (hregistered : Broker.Registered bas s.broker) (hinformed : Informed u bas s)
    (hrun : Run (State.step cfg) (fun s a => keepsDescriptors s a = true) s as t)
    (hnone : .connect ∉ as) :
    Served cfg t ∧ ∃ bas, Relayed bas t ∧ Broker.Registered bas t.broker ∧ Informed u bas t := by
  induction hrun with
  | nil => exact ⟨hserved, bas, hrelayed, hregistered, hinformed⟩
  | @snoc p t as a _ hok h ih =>
    rw [List.mem_append, List.mem_singleton, not_or] at hnone
    obtain ⟨hserved, bas, hrelayed, hregistered, hinformed⟩ := ih hnone.1
    exact ⟨hserved.step h, _, hrelayed.step hserved h, hrelayed.registered hregistered hok h,
      hinformed.step hrelayed hserved (Ne.symm hnone.2) h⟩

/-- What an open connection has subscribed to is exactly what the router holds for its
descriptor. -/
theorem mem_members_iff_of_registered {broker : Broker.State} {n : ℕ} {c : Conn}
    (hregistered : Broker.Registered bas broker) (hattended : Broker.Attended bas broker)
    (hn : broker.conns[n]? = some c) (hopen : c.isOpen = true) {pattern group : Bytes} :
    c.sock ∈ broker.router.members pattern group ↔
      ∃ g, (pattern, g) ∈ Broker.subscriptions n bas ∧ group = groupKey g c.sock := by
  constructor
  · intro hmem
    obtain ⟨k, c', g, hk, hattends, hsock, rfl, hsub⟩ := hattended.members _ _ _ hmem
    -- The connection that subscribed is this one: no other attends to the descriptor.
    have hopen' : c'.isOpen = true := by
      rcases Bool.or_eq_true_iff.mp hattends with hopen' | hleaving
      · exact hopen'
      · exact absurd hsock (hregistered.released c (List.mem_of_getElem? hn) hopen c'
          (List.mem_of_getElem? hk) hleaving)
    obtain rfl := hregistered.eq_of_sock hn hopen hk hopen' hsock.symm
    exact ⟨g, hsub, rfl⟩
  · rintro ⟨g, hsub, rfl⟩
    exact hregistered.members n c hn hopen _ hsub

/-- A subscription was requested since a connection came up in `u`, or while there was none from `v`
on, with its frame among those that waited. -/
def Told (v u t : State) (w : Ws) (p g : JsString) : Prop :=
  (w, p, g) ∈ t.requests.drop u.requests.length ∨
    (w, p, g) ∈ u.requests.drop v.requests.length ∧ (p.toUtf8, g.toUtf8) ∈ u.waiting

/-- When the connection is up and the broker has taken all that was sent over it, it holds for the
gateway what was requested since the connection came up, or waited for it, whether or not the client
has closed since, and what had been requested by clients which had not closed when it came up; where
those had named a group, it may hold the topic's unique group in place of it, or beside it. It holds
nothing else. Every request of a client that is open now is one of these, and everything that was
requested while there was no connection has waited, unless the queue was full. -/
theorem subscriptions_mirrored (hstart : State.start cfg file order = some s)
    (hrun : Run (State.step cfg) (fun s a => keepsDescriptors s a = true) s as t) {n : ℕ} {c : Conn}
    (hsettled : t.Settled n c) :
    ∃ v u, CameUp cfg (fun s a => keepsDescriptors s a = true) s as v u ∧
      (∀ w p g, Told v u t w p g →
        c.sock ∈ t.broker.router.members p.toUtf8 (groupKey g.toUtf8 c.sock)) ∧
      (∀ w p g, u.Standing w p g →
        c.sock ∈ t.broker.router.members p.toUtf8 (groupKey g.toUtf8 c.sock) ∨
          g ≠ [] ∧ c.sock ∈ t.broker.router.members p.toUtf8 (groupKey [] c.sock)) ∧
      (∀ pattern group, c.sock ∈ t.broker.router.members pattern group → ∃ w p g,
        pattern = p.toUtf8 ∧ (Told v u t w p g ∧ group = groupKey g.toUtf8 c.sock ∨
          u.Standing w p g ∧ (group = groupKey g.toUtf8 c.sock ∨
            g ≠ [] ∧ group = groupKey [] c.sock))) ∧
      (∀ w p g, (w, p, g) ∈ t.requests → t.ws.isOpen w = true →
        Told v u t w p g ∨ u.Standing w p g) ∧
      (u.tcp.outQueue.length < Gateway.OUT_QUEUE_MAX →
        ∀ w p g, (w, p, g) ∈ u.requests.drop v.requests.length → Told v u t w p g) := by
  obtain ⟨-, v, u, u', after, hcame, hqueued, ⟨before, hbefore⟩, hconnect, hok, hafter, hnone⟩ :=
    (exists_cameUp hstart hrun).2 hsettled.connected
  obtain ⟨⟨hserved, hremembered⟩, bas, hrelayed, hregistered⟩ := relayed_of_run hstart hbefore
  have hrelayed' := hrelayed.step hserved hconnect
  have hregistered' := hrelayed.registered hregistered hok hconnect
  simp only [State.brokerAction, Option.toList_none, List.append_nil] at hrelayed' hregistered'
  obtain ⟨-, bas', hrelayed, hregistered, hinformed⟩ :=
    informed_of_run (hserved.step hconnect) hrelayed' hregistered'
      (informed_of_connect hrelayed hserved hremembered hconnect) hafter hnone
  -- The router holds what has gone over the connection.
  have hmembers : ∀ {pattern group}, c.sock ∈ t.broker.router.members pattern group ↔
      ∃ g, (u.Greets (pattern, g) ∨
        (pattern, g) ∈ subscriptionsOf (t.requests.drop u.requests.length)) ∧
          group = groupKey g c.sock := by
    intro pattern group
    rw [mem_members_iff_of_registered hregistered hrelayed.attended hsettled.conn hsettled.isOpen,
      ← hsettled.sent_eq]
    simp only [hinformed.sent n hsettled.link hsettled.connected hsettled.alive]
  refine ⟨v, u, hcame, fun w p g htold => hmembers.mpr ⟨g.toUtf8, ?_, rfl⟩,
    fun w p g hstanding => ?_, fun pattern group hmem => ?_, fun w p g hmem hopen => ?_,
    fun hroom w p g hmem => ?_⟩
  · rcases htold with hsince | ⟨-, hwaits⟩
    · exact .inr (mem_subscriptionsOf.mpr ⟨w, p, g, hsince, rfl⟩)
    · exact .inl (.inr hwaits)
  · have hunique : c.sock ∈ t.broker.router.members p.toUtf8 (groupKey [] c.sock) :=
      hmembers.mpr ⟨[], .inl (.inl ⟨w, p, g, hstanding, rfl⟩), rfl⟩
    by_cases hgroup : g = []
    · exact .inl (by rwa [hgroup, JsString.toUtf8_nil])
    · exact .inr ⟨hgroup, hunique⟩
  · obtain ⟨g', (⟨w, p, g, hstanding, heq⟩ | hwaits) | hsince, rfl⟩ := hmembers.mp hmem
    · -- A topic of the table, without its group.
      obtain ⟨rfl, rfl⟩ := Prod.mk.inj heq
      refine ⟨w, p, g, rfl, .inr ⟨hstanding, ?_⟩⟩
      by_cases hgroup : g = []
      · exact .inl (by rw [hgroup, JsString.toUtf8_nil])
      · exact .inr ⟨hgroup, rfl⟩
    · obtain ⟨w, p, g, hrequest, heq⟩ := mem_subscriptionsOf.mp (hqueued.asked _ hwaits)
      obtain ⟨rfl, rfl⟩ := Prod.mk.inj heq
      exact ⟨w, p, g, rfl, .inl ⟨.inr ⟨hrequest, hwaits⟩, rfl⟩⟩
    · obtain ⟨w, p, g, hrequest, heq⟩ := mem_subscriptionsOf.mp hsince
      obtain ⟨rfl, rfl⟩ := Prod.mk.inj heq
      exact ⟨w, p, g, rfl, .inl ⟨.inl hrequest, rfl⟩⟩
  · obtain ⟨since, hsince⟩ := hinformed.requests
    rw [← hsince, List.mem_append] at hmem
    rcases hmem with hmem | hmem
    · refine .inr ⟨hmem, fun hclosed => ?_⟩
      have hwas := hinformed.isOpen w p g hmem hopen
      simp [Gateway.WsServer.isOpen, hclosed] at hwas
    · exact .inl (.inl (by rwa [← hsince, List.drop_left]))
  · obtain ⟨⟨hidle, -, -⟩, -⟩ := step_connect_eq hconnect
    have hrunning : u.crashed = false := by
      simpa [State.idle] using (Bool.and_eq_true_iff.mp hidle).2
    exact .inr ⟨hmem, hqueued.all hrunning hroom _ (mem_subscriptionsOf.mpr ⟨w, p, g, hmem, rfl⟩)⟩

/-- A client subscribes to `t` in a group; the connection breaks, the broker's thread cleans up, and
the gateway connects again. -/
def reconnected (group : JsString) : List Action :=
  [.wsConnect, .dial 7, .connect, .wsMessage 0 (.subscribe [0x74] group), .upstream 0, .close,
    .broker (.hangup 0), .broker (.client 0), .broker (.client 0), .broker (.client 0),
    .broker (.client 0), .dial 7, .connect, .upstream 1]

/-- A subscription without a group is mirrored. -/
theorem subscriptions_mirrored_reconnected :
    ∃ t, Run (State.step (.ofBroker ⟨4, 3, 5000⟩)) (fun s a => keepsDescriptors s a = true)
        (State.beside (.init ⟨4, 3, 5000⟩)) (reconnected []) t ∧
      t.Settled 1 ⟨7, .reading⟩ ∧ t.ws.isOpen 0 = true ∧ t.requests = [(0, [0x74], [])] ∧
      7 ∈ t.broker.router.members (JsString.toUtf8 [0x74]) (groupKey [] 7) := by
  obtain ⟨t, ht, hend⟩ := (Option.any_eq_true _ _).mp
    (show (execChecked (State.step (.ofBroker ⟨4, 3, 5000⟩))
      (fun s a => keepsDescriptors s a = true) (State.beside (.init ⟨4, 3, 5000⟩))
      (reconnected [])).any (fun t => t.tcp.connected = true ∧ t.tcp.destroyed = false ∧
        t.link = some 1 ∧ t.broker.conns[1]? = some ⟨7, .reading⟩ ∧ t.up 1 = [] ∧
        t.ws.isOpen 0 = true ∧ t.requests = [(0, [0x74], [])]) = true by decide)
  obtain ⟨hconnected, halive, hlink, hconn, htaken, hopen, hrequests⟩ := of_decide_eq_true hend
  have hsettled : t.Settled 1 ⟨7, .reading⟩ := ⟨hconnected, halive, hlink, hconn, rfl, htaken⟩
  have hrun := run_of_execChecked ht
  refine ⟨t, hrun, hsettled, hopen, hrequests, ?_⟩
  obtain ⟨v, u, -, htold, hstanding, -, hall, -⟩ :=
    subscriptions_mirrored (State.start_nil _) hrun hsettled
  have hrequest : (0, [0x74], []) ∈ t.requests := hrequests ▸ List.mem_singleton_self _
  rcases hall 0 [0x74] [] hrequest hopen with hone | hone
  · simpa only [JsString.toUtf8_nil] using htold 0 [0x74] [] hone
  · rcases hstanding 0 [0x74] [] hone with hmem | ⟨hgroup, -⟩
    · rwa [JsString.toUtf8_nil] at hmem
    · exact absurd rfl hgroup

/-- A client subscribes to `t` in group `g` and closes. -/
def closedClient : List Action :=
  [.wsConnect, .dial 7, .connect, .wsMessage 0 (.subscribe [0x74] [0x67]), .upstream 0, .wsClose 0]

/-- The memberships are not those of the open clients. With no client open, the router still holds
what a closed one had requested. After a reconnection it holds the unique group of a topic in place
of the group that an open client has requested. -/
theorem subscriptions_not_mirrored :
    (∃ t, exec (State.step (.ofBroker ⟨4, 3, 5000⟩)) (State.beside (.init ⟨4, 3, 5000⟩))
        closedClient = some t ∧
      t.Settled 0 ⟨7, .reading⟩ ∧ t.ws.openClients = [] ∧
      7 ∈ t.broker.router.members [0x74] [0x67]) ∧
    ∃ t, exec (State.step (.ofBroker ⟨4, 3, 5000⟩)) (State.beside (.init ⟨4, 3, 5000⟩))
        (reconnected [0x67]) = some t ∧
      t.Settled 1 ⟨7, .reading⟩ ∧ t.ws.isOpen 0 = true ∧ t.requests = [(0, [0x74], [0x67])] ∧
      t.broker.router.members [0x74] [0x67] = [] ∧
      7 ∈ t.broker.router.members [0x74] (groupKey [] 7) := by
  constructor
  · obtain ⟨t, ht, hend⟩ := (Option.any_eq_true _ _).mp
      (show (exec (State.step (.ofBroker ⟨4, 3, 5000⟩)) (State.beside (.init ⟨4, 3, 5000⟩))
        closedClient).any (fun t => t.tcp.connected = true ∧ t.tcp.destroyed = false ∧
          t.link = some 0 ∧ t.broker.conns[0]? = some ⟨7, .reading⟩ ∧ t.up 0 = [] ∧
          t.ws.openClients = [] ∧ 7 ∈ t.broker.router.members [0x74] [0x67]) = true by
            decide)
    obtain ⟨hconnected, halive, hlink, hconn, htaken, hopen, hmem⟩ := of_decide_eq_true hend
    exact ⟨t, ht, ⟨hconnected, halive, hlink, hconn, rfl, htaken⟩, hopen, hmem⟩
  · obtain ⟨t, ht, hend⟩ := (Option.any_eq_true _ _).mp
      (show (exec (State.step (.ofBroker ⟨4, 3, 5000⟩)) (State.beside (.init ⟨4, 3, 5000⟩))
        (reconnected [0x67])).any (fun t => t.tcp.connected = true ∧ t.tcp.destroyed = false ∧
          t.link = some 1 ∧ t.broker.conns[1]? = some ⟨7, .reading⟩ ∧ t.up 1 = [] ∧
          t.ws.isOpen 0 = true ∧ t.requests = [(0, [0x74], [0x67])] ∧
          t.broker.router.members [0x74] [0x67] = [] ∧
          7 ∈ t.broker.router.members [0x74] (groupKey [] 7)) = true by decide)
    obtain ⟨hconnected, halive, hlink, hconn, htaken, hopen, hrequests, hnone, hmem⟩ :=
      of_decide_eq_true hend
    exact ⟨t, ht, ⟨hconnected, halive, hlink, hconn, rfl, htaken⟩, hopen, hrequests, hnone, hmem⟩

end EventQueue.Bridge
