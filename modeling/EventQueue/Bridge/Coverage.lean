import EventQueue.Bridge.Matching
import EventQueue.Bridge.Mirror

/-!
# No client is starved

With the gateway as the broker's only client, every topic that matches a pattern of an open client
is routed to the gateway, once the broker has taken what was sent over the connection. Here a
descriptor may be given to the gateway's next connection while the thread of the last one has still
to unsubscribe, as long as that happens before the broker takes a frame from the new one: then
nobody but the gateway's connection attends to the router any more, and whatever it subscribes stays
(`Tenured`).
-/

namespace EventQueue.Bridge

open Broker (Conn subscriptions)
open Broker.TopicRouter (groupKey Target)
open Gateway (Ws ClientMessage)
open Transition (Run exec execChecked run_of_execChecked)

variable {cfg : Config} {s t : State} {a : Action} {as : List Action} {bas : List Broker.Action}
  {file : Bytes} {order : List Broker.Message}

/-- The gateway is the broker's only client, and the broker takes a frame from a connection only
when the threads of all earlier ones have unsubscribed. -/
def alone (s : State) : Action → Bool
  | .broker (.accept _) => false
  | .upstream n => (s.broker.conns.take n).all fun c => !c.attends
  | _ => true

/-- What holds of the broker with the gateway as its only client. -/
structure Tenured (bas : List Broker.Action) (s : State) : Prop where
  /-- No thread handles an ERROR_RESP frame. -/
  serving : ∀ c ∈ s.broker.conns, c.isOpen = true → c.pc.serving = true
  /-- Every connection is the gateway's. -/
  own : ∀ n, n < s.broker.conns.length → n ∈ s.own
  /-- The one that it has is the last one. -/
  last : ∀ n, s.link = some n → n + 1 = s.broker.conns.length
  /-- Once that has subscribed, no other attends. -/
  sole : ∀ n, s.link = some n → subscriptions n bas ≠ [] → ∀ k c, s.broker.conns[k]? = some c →
    c.attends = true → k = n
  /-- While it is open, the router holds what it has subscribed. -/
  members : ∀ n c, s.link = some n → s.broker.conns[n]? = some c → c.isOpen = true →
    ∀ sub ∈ subscriptions n bas, c.sock ∈ s.broker.router.members sub.1 (groupKey sub.2 c.sock)

/-- There is no connection at first. -/
theorem tenured_start (h : State.start cfg file order = some s) : Tenured [] s := by
  obtain ⟨broker, hbroker, rfl⟩ := Option.map_eq_some_iff.mp h
  have hconns : (State.beside broker).broker.conns = [] := (Broker.wal_of_start hbroker).2.1
  refine ⟨?_, ?_, fun n hlink => ?_, fun n hlink => ?_, fun n c hlink => ?_⟩
  · intro c hc
    rw [hconns] at hc
    cases hc
  · intro n hn
    rw [hconns] at hn
    cases hn
  all_goals cases hlink

/-- A frame that the broker takes from the gateway is no ERROR_RESP. -/
theorem Relayed.sendsNoErrorResp (hs : Relayed bas s) {n : ℕ} {bytes : Bytes} (h : bytes ∈ s.up n) :
    Broker.sendsNoErrorResp (frameAction n bytes) = true := by
  simpa [Broker.sendsNoErrorResp, frameAction, polite] using (hs.up n bytes h).2

/-- A step of the broker that accepts nothing leaves the connection alone with the router, and
leaves it what it has subscribed. -/
theorem Tenured.kept (hs : Tenured bas s) {b : Broker.Action} {broker : Broker.State}
    (hok : Broker.sendsNoErrorResp b = true) (hne : ∀ sock, b ≠ .accept sock)
    (hstep : s.broker.step cfg.broker b = some broker) {n : ℕ} (hlink : s.link = some n) :
    (subscriptions n bas ≠ [] → ∀ k c, broker.conns[k]? = some c → c.attends = true → k = n) ∧
      ∀ c, broker.conns[n]? = some c → c.isOpen = true → ∀ sub ∈ subscriptions n bas,
        c.sock ∈ broker.router.members sub.1 (groupKey sub.2 c.sock) := by
  have hregisters := Broker.step_registers hs.serving hok hstep
  constructor
  · intro hsubs k c hk hattends
    rcases (Broker.step_attends hstep).attends_of_getElem? hk hattends with
      ⟨c₀, hk₀, hattends₀, -⟩ | ⟨sock, ha, -⟩
    · exact hs.sole n hlink hsubs k c₀ hk₀ hattends₀
    · exact absurd ha (hne sock)
  · intro c hn hopen sub hsub
    obtain ⟨-, ⟨c₀, hn₀, hopen₀, hsock⟩ | ⟨sock, ha, -⟩⟩ :=
      hregisters.isOpen_of_getElem? hs.serving hn hopen
    · rw [← hsock]
      refine Broker.mem_members_of_step hstep (hs.members n c₀ hlink hn₀ hopen₀ sub hsub) ?_
      -- Whoever attends is the connection itself, which is serving.
      intro c' hc' hattends _
      obtain ⟨k, hk⟩ := List.mem_iff_getElem?.mp hc'
      obtain rfl := hs.sole n hlink (List.ne_nil_of_mem hsub) k c' hk hattends
      obtain rfl := Option.some.inj (hk.symm.trans hn₀)
      exact hs.serving c' hc' hopen₀
    · exact absurd ha (hne sock)

/-- No thread comes to handle an ERROR_RESP frame. -/
theorem Tenured.serving_of_step (hs : Tenured bas s) {b : Broker.Action} {broker : Broker.State}
    (hok : Broker.sendsNoErrorResp b = true) (hstep : s.broker.step cfg.broker b = some broker) :
    ∀ c ∈ broker.conns, c.isOpen = true → c.pc.serving = true := by
  intro c hc hopen
  obtain ⟨n, hn⟩ := List.mem_iff_getElem?.mp hc
  exact ((Broker.step_registers hs.serving hok hstep).isOpen_of_getElem? hs.serving hn hopen).1

/-- An action of the broker's own threads keeps the tenure. -/
theorem Tenured.broker (hs : Tenured bas s) {b : Broker.Action} (hok : alone s (.broker b) = true)
    (h : s.step cfg (.broker b) = some t) : Tenured (bas ++ [b]) t := by
  obtain ⟨⟨broker, down, hstep, rfl⟩, hown⟩ := step_broker_eq h
  have hne : ∀ sock, b ≠ .accept sock := by
    rintro sock rfl
    cases hok
  -- All connections are the gateway's, so that the action is no frame.
  have hframe : ∀ n type msg_id payload, b ≠ .frame n type msg_id payload := by
    rintro n type msg_id payload rfl
    exact hown n type msg_id payload rfl (hs.own n (Broker.lt_length_of_frame hstep))
  have hpolite : Broker.sendsNoErrorResp b = true := by
    cases b with
    | frame n type msg_id payload => exact absurd rfl (hframe n type msg_id payload)
    | _ => rfl
  have hsubs : ∀ n, subscriptions n (bas ++ [b]) = subscriptions n bas := by
    intro n
    cases b with
    | frame n type msg_id payload => exact absurd rfl (hframe n type msg_id payload)
    | _ => rw [Broker.subscriptions_append]; exact List.append_nil _
  have hlength := (Broker.step_attends hstep).length_eq hne
  refine ⟨hs.serving_of_step hpolite hstep, ?_, ?_, ?_, ?_⟩
  · exact fun n hn => hs.own n (hlength ▸ hn)
  · exact fun n hn => (hs.last n hn).trans hlength.symm
  · intro n hn
    rw [hsubs]
    exact (hs.kept hpolite hne hstep hn).1
  · intro n c hn
    rw [hsubs]
    exact (hs.kept hpolite hne hstep hn).2 c

/-- A new connection of the gateway's has subscribed to nothing yet. -/
theorem Tenured.dial (hs : Tenured bas s) (hrelayed : Relayed bas s) {sock : Broker.ClientId}
    (h : s.step cfg (.dial sock) = some t) : Tenured (bas ++ [.accept sock]) t := by
  obtain ⟨-, broker, hstep, rfl⟩ := step_dial_eq h
  have hconns : broker.conns = s.broker.conns ++ [⟨sock, .reading⟩] := by
    simp only [Broker.State.step] at hstep
    split_ifs at hstep
    rw [← Option.some.inj hstep]
  -- Nothing is subscribed over a connection that the broker does not know yet.
  have hsubs : subscriptions s.broker.conns.length (bas ++ [.accept sock]) = [] := by
    rw [Broker.subscriptions_append]
    by_contra hne
    exact absurd (hrelayed.attended.known _ fun hnil => hne (by rw [hnil]; rfl)) (lt_irrefl _)
  refine ⟨hs.serving_of_step rfl hstep, fun n hn => ?_, fun n hn => ?_, fun n hn => ?_,
    fun n c hn => ?_⟩
  · dsimp only at hn ⊢
    rw [hconns, List.length_append, List.length_singleton] at hn
    rcases Nat.lt_succ_iff_lt_or_eq.mp hn with hlt | rfl
    · exact List.mem_append_left _ (hs.own n hlt)
    · exact List.mem_append_right _ (List.mem_singleton_self _)
  all_goals obtain rfl := Option.some.inj hn
  · simp [hconns]
  · exact fun hne => absurd hsubs hne
  · intro _ _ sub hsub
    rw [hsubs] at hsub
    cases hsub

/-- A frame of the gateway's subscribes, or leaves the tenure as it is. -/
theorem Tenured.upstream (hs : Tenured bas s) (hrelayed : Relayed bas s) {k : ℕ} {bytes : Bytes}
    {rest : List Bytes} (hup : s.up k = bytes :: rest) (hok : alone s (.upstream k) = true)
    (h : s.step cfg (.upstream k) = some t) : Tenured (bas ++ [frameAction k bytes]) t := by
  obtain ⟨bytes', rest', broker, down, hup', hstep, rfl⟩ := step_upstream_eq h
  obtain ⟨rfl, rfl⟩ : bytes' = bytes ∧ rest' = rest := by
    simpa using hup'.symm.trans hup
  have hpolite := hrelayed.sendsNoErrorResp (hup ▸ List.mem_cons_self)
  have hne : ∀ sock, frameAction k bytes' ≠ .accept sock := fun sock heq => by cases heq
  have hlength := (Broker.step_attends hstep).length_eq hne
  have hearlier : ∀ c ∈ s.broker.conns.take k, c.attends = false := by
    simpa [alone] using hok
  refine ⟨hs.serving_of_step hpolite hstep, ?_, ?_, ?_, ?_⟩
  · exact fun n hn => hs.own n (hlength ▸ hn)
  · exact fun n hn => (hs.last n hn).trans hlength.symm
  · intro n hn hsubs j c hj hattends
    by_cases hkn : k = n
    · subst hkn
      -- The connection is the last one, and no earlier one attends.
      rcases (Broker.step_attends hstep).attends_of_getElem? hj hattends with
        ⟨c₀, hj₀, hattends₀, -⟩ | ⟨sock, ha, -⟩
      · have hlt := (List.getElem?_eq_some_iff.mp hj₀).1
        have hlast := hs.last k hn
        by_contra hjk
        have hmem : c₀ ∈ s.broker.conns.take k := by
          refine List.mem_of_getElem? (i := j) ?_
          rw [List.getElem?_take_of_lt (by omega), hj₀]
        rw [hearlier c₀ hmem] at hattends₀
        cases hattends₀
      · exact absurd ha (hne sock)
    · rw [Broker.subscriptions_append, subscriptions_frameAction_of_ne hkn, List.append_nil]
        at hsubs
      exact (hs.kept hpolite hne hstep hn).1 hsubs j c hj hattends
  · intro n c hn hc hopen sub hsub
    rw [Broker.subscriptions_append] at hsub
    rcases List.mem_append.mp hsub with hsub | hsub
    · exact (hs.kept hpolite hne hstep hn).2 c hc hopen sub hsub
    · obtain ⟨type, msg_id, payload, heq, htype, htopic, rfl⟩ :=
        Broker.mem_subscriptions_singleton.mp hsub
      rw [heq] at hstep
      have hlt := Broker.lt_length_of_frame hstep
      obtain ⟨c₀, hc₀, hsock, -⟩ := (Broker.step_attends hstep).getElem?
        (List.getElem?_eq_getElem hlt)
      obtain rfl := Option.some.inj (hc₀.symm.trans hc)
      rw [hsock]
      exact Broker.mem_members_of_frame hstep (List.getElem?_eq_getElem hlt) htype htopic

/-- Every step keeps the tenure. -/
theorem Tenured.step (hs : Tenured bas s) (hrelayed : Relayed bas s) (hok : alone s a = true)
    (h : s.step cfg a = some t) : Tenured (bas ++ (s.brokerAction a).toList) t := by
  cases haction : s.brokerAction a with
  | none =>
    -- A turn of the gateway, which the broker has no part in.
    obtain ⟨hbroker, hown, hlink⟩ := step_gateway_eq h haction
    rw [Option.toList_none, List.append_nil]
    refine ⟨?_, ?_, fun n hn => ?_, fun n hn => ?_, fun n c hn => ?_⟩ <;> rw [hbroker]
    · exact hs.serving
    · rw [hown]
      exact hs.own
    · exact hs.last n (hlink n hn)
    · exact hs.sole n (hlink n hn)
    · exact hs.members n c (hlink n hn)
  | some b =>
    cases a with
    | broker b' =>
      obtain rfl := Option.some.inj haction
      exact hs.broker hok h
    | dial sock =>
      obtain rfl := Option.some.inj haction
      exact hs.dial hrelayed h
    | upstream n =>
      obtain ⟨bytes, rest, broker, down, hup, -, -⟩ := step_upstream_eq h
      obtain rfl : frameAction n bytes = b := by simpa [State.brokerAction, hup] using haction
      exact hs.upstream hrelayed hup hok h
    | _ => cases haction

/-- What a run keeps. -/
theorem tenured_of_run (hstart : State.start cfg file order = some s)
    (hrun : Run (State.step cfg) (fun s a => alone s a = true) s as t) :
    Served cfg t ∧ ∃ bas, Relayed bas t ∧ Tenured bas t := by
  refine hrun.invariant (I := fun s => Served cfg s ∧ ∃ bas, Relayed bas s ∧ Tenured bas s) ?_ ?_
  · rintro s a t ⟨hserved, bas, hrelayed, hs⟩ hok h
    exact ⟨hserved.step h, _, hrelayed.step hserved h, hs.step hrelayed hok h⟩
  · exact ⟨served_start hstart, [], relayed_start hstart, tenured_start hstart⟩

/-- With the gateway as the broker's only client, and the threads of earlier connections done with
the router before a frame of the next one is taken: when the connection is up and all that was sent
over it is taken, a message whose topic matches a pattern of an open client is routed to the
gateway. -/
theorem no_client_starved (hstart : State.start cfg file order = some s)
    (hrun : Run (State.step cfg) (fun s a => alone s a = true) s as t) {n : ℕ} {c : Conn}
    (hsettled : t.Settled n c) {w : Ws} {p topic : JsString} (hopen : t.ws.isOpen w = true)
    (hhas : t.ws.Has w p) (hmatch : Gateway.topicMatches p topic = true) (m : Broker.Message)
    (hm : m.topic = topic.toUtf8) :
    ∃ target ∈ (t.broker.router.route m).1, target.client_id = c.sock := by
  obtain ⟨hserved, bas, hrelayed, htenured⟩ := tenured_of_run hstart hrun
  have hlinked := hrelayed.linked n hsettled.link hsettled.connected
  obtain ⟨g, hrequest⟩ := hserved.requested w p hhas
  -- The pattern was subscribed over the connection, in its group or in its unique group.
  obtain ⟨g', hsub⟩ : ∃ g', (p.toUtf8, g') ∈ subscriptions n bas := by
    rw [← hsettled.sent_eq]
    rw [← List.take_append_drop t.since t.requests] at hrequest
    rcases List.mem_append.mp hrequest with hmem | hmem
    · exact ⟨[], hlinked.earlier hsettled.alive w p g hmem hopen⟩
    · exact ⟨g.toUtf8, hlinked.recent hsettled.alive w p g hmem⟩
  have hmember := htenured.members n c hsettled.link hsettled.conn hsettled.isOpen _ hsub
  refine ⟨⟨p.toUtf8, groupKey g' c.sock, c.sock⟩, ?_, rfl⟩
  refine Broker.TopicRouter.mem_targets_of_only ?_ hmember ?_
  · rw [hm]
    exact brokerMatches_of_topicMatches hmatch
  · -- nobody else attends, so that nobody else is a member
    intro x hx
    obtain ⟨k, c', -, hk, hattends, hsock, -⟩ := hrelayed.attended.members x _ _ hx
    obtain rfl := htenured.sole n hsettled.link (List.ne_nil_of_mem hsub) k c' hk hattends
    rw [← hsock, Option.some.inj (hk.symm.trans hsettled.conn)]

/-- A client subscribes to `t.*` in group `g`. The connection breaks, and the gateway is given the
same descriptor again before the thread of the broken connection has unsubscribed it. -/
def reconnectedEarly : List Action :=
  [.wsConnect, .dial 7, .connect, .wsMessage 0 (.subscribe [0x74, 0x2E, 0x2A] [0x67]), .upstream 0,
    .close, .broker (.hangup 0), .dial 7, .connect, .broker (.client 0), .broker (.client 0),
    .upstream 1]

/-- A message on `t.a` is routed to the gateway. -/
theorem no_client_starved_reconnectedEarly :
    ∃ t, Run (State.step (.ofBroker ⟨4, 3, 5000⟩)) (fun s a => alone s a = true)
        (State.beside (.init ⟨4, 3, 5000⟩)) reconnectedEarly t ∧
      t.Settled 1 ⟨7, .reading⟩ ∧
      ∃ target ∈ (t.broker.router.route
        ⟨1, JsString.toUtf8 [0x74, 0x2E, 0x61], [], 0, 0⟩).1, target.client_id = 7 := by
  obtain ⟨t, ht, hend⟩ := (Option.any_eq_true _ _).mp
    (show (execChecked (State.step (.ofBroker ⟨4, 3, 5000⟩)) (fun s a => alone s a = true)
      (State.beside (.init ⟨4, 3, 5000⟩)) reconnectedEarly).any (fun t =>
        t.tcp.connected = true ∧ t.tcp.destroyed = false ∧ t.link = some 1 ∧
        t.broker.conns[1]? = some ⟨7, .reading⟩ ∧ t.up 1 = [] ∧ t.ws.isOpen 0 = true ∧
        ((t.ws.clientTopics.lookup 0).any fun topics =>
          [0x74, 0x2E, 0x2A] ∈ topics.elems) = true) = true by decide)
  obtain ⟨hconnected, halive, hlink, hconn, htaken, hopen, htopics⟩ := of_decide_eq_true hend
  obtain ⟨topics, hlookup, hmem⟩ := (Option.any_eq_true _ _).mp htopics
  have hsettled : t.Settled 1 ⟨7, .reading⟩ := ⟨hconnected, halive, hlink, hconn, rfl, htaken⟩
  have hrun := run_of_execChecked ht
  exact ⟨t, hrun, hsettled, no_client_starved (State.start_nil _) hrun hsettled hopen
    ⟨topics, hlookup, of_decide_eq_true hmem⟩ (by decide) _ rfl⟩

end EventQueue.Bridge
