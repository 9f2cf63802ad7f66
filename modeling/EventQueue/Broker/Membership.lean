import EventQueue.Broker.Registration

/-!
# Where the router's members come from

Whatever the router holds for a descriptor was subscribed by a connection under it that has not come
to its `router.unsubscribe` yet (`Attended`). This needs no condition on the run: a thread that
unsubscribes takes all that the router holds for its descriptor, its successor's subscriptions
included.
-/

namespace EventQueue.Broker

open Transition (Run)

variable {cfg : Config} {s t : State} {a : Action} {as : List Action} {file : Bytes}
  {order : List Message}

/-- The connection's thread has not come past its last `router.unsubscribe`. -/
def Conn.attends (c : Conn) : Bool := c.isOpen || c.pc.leaving

/-- What a step does to the connections and to the members that the router holds. -/
inductive Attends (s : State) (a : Action) (t : State) : Prop
  /-- A connection is accepted. -/
  | accept (sock : ClientId) (ha : a = .accept sock) (hrouter : t.router = s.router)
      (hconns : t.conns = s.conns ++ [⟨sock, .reading⟩])
  /-- A SUBSCRIBE frame with a topic. -/
  | subscribe (n : ℕ) (c : Conn) (type : UInt8) (msg_id : UInt64) (payload : Bytes)
      (ha : a = .frame n type msg_id payload) (hn : s.conns[n]? = some c) (hpc : c.pc = .reading)
      (htype : MessageType.ofByte type = some .subscribe)
      (htopic : (decodeSubscribe payload).topic ≠ [])
      (hrouter : t.router = s.router.subscribe (decodeSubscribe payload).topic
        (decodeSubscribe payload).group c.sock)
      (hconns : t.conns = s.conns)
  /-- `router.unsubscribe`. -/
  | unsubscribe (n : ℕ) (c : Conn) (closing : Bool) (ha : a = .client n)
      (hn : s.conns[n]? = some c) (hpc : c.pc = .unsubscribe closing)
      (hrouter : t.router = s.router.unsubscribe c.sock)
      (hconns : t.conns = goTo s.conns n (.disconnectLock closing))
  /-- A thread goes on, on the same side of its `router.unsubscribe`. -/
  | goOn (n : ℕ) (c : Conn) (pc : ClientPc) (hn : s.conns[n]? = some c)
      (hattends : Conn.attends { c with pc } = c.attends) (hrouter : t.router = s.router)
      (hconns : t.conns = goTo s.conns n pc)
  /-- No connection's thread goes on, and every group has the members that it had. -/
  | keep (hmembers : ∀ pattern group, t.router.members pattern group =
      s.router.members pattern group) (hconns : t.conns = s.conns)

/-- Every step does one of these things. -/
theorem step_attends (h : s.step cfg a = some t) : Attends s a t := by
  have hkeep : ∀ u : State, u.router = s.router → u.conns = s.conns → Attends s a u :=
    fun u hrouter hconns => .keep (fun _ _ => by rw [hrouter]) hconns
  cases step_sound h with
  | accept sock hfree => exact .accept sock rfl rfl rfl
  | subscribe n c type msg_id payload hn hpc htype htopic =>
    exact .subscribe n c type msg_id payload rfl hn hpc htype htopic rfl rfl
  | publish n c type msg_id payload m hn hpc | ack n c type msg_id payload hn hpc
  | nack n c type msg_id payload hn hpc | errorResp n c type msg_id payload hn hpc
  | hangup n c hn hpc | publishAppend n c m hn hpc | publishPush n c m main_queue hn hpc
  | ackEngine n c msg_id hn hpc | ackWal n c msg_id hn hpc | nackNone n c msg_id hn hpc
  | nackLock n c msg_id entry hn hpc | eraseClient n c hn hpc =>
    refine .goOn n c _ hn ?_ rfl rfl
    simp [Conn.attends, Conn.isOpen, ClientPc.leaving, hpc]
  | nackPush n c msg_id u hn hpc hfail =>
    refine .goOn n c .reading hn ?_ hfail.registry_eq.2 (by rw [hfail.conns_eq])
    simp [Conn.attends, Conn.isOpen, hpc]
  | unsubscribe n c closing hn hpc => exact .unsubscribe n c closing rfl hn hpc rfl rfl
  | disconnectLock n c closing hn hpc hmu =>
    refine .goOn n c _ hn ?_ rfl rfl
    cases closing <;> simp [Conn.attends, Conn.isOpen, ClientPc.leaving, hpc]
  | disconnectPush n c closing key t hn hpc hkey hfail =>
    exact hkeep _ hfail.registry_eq.2 hfail.conns_eq
  | disconnectDone n c closing hn hpc hkey =>
    refine .goOn n c _ hn ?_ rfl rfl
    cases closing <;> simp [Conn.attends, Conn.isOpen, ClientPc.leaving, hpc]
  | drop m hpc hnone => exact .keep (TopicRouter.members_route s.router m) rfl
  | route m tgt todo hpc hperm => exact .keep (TopicRouter.members_route s.router m) rfl
  | scanPush now deadline key rest entry t hpc hhead hnow hentry hdue hfail =>
    exact hkeep _ hfail.registry_eq.2 hfail.conns_eq
  | _ => exact hkeep _ rfl rfl

/-- Whatever the router holds was subscribed by a connection that attends to it. -/
structure Attended (as : List Action) (s : State) : Prop where
  /-- A member of a group was subscribed by a connection under its descriptor. -/
  members : ∀ x pattern group, x ∈ s.router.members pattern group →
    ∃ n c g, s.conns[n]? = some c ∧ c.attends = true ∧ c.sock = x ∧
      group = TopicRouter.groupKey g x ∧ (pattern, g) ∈ subscriptions n as
  /-- Only connections that are there have made subscriptions. -/
  known : ∀ n, subscriptions n as ≠ [] → n < s.conns.length

/-- After a start the router is empty. -/
theorem attended_of_start (h : State.start cfg file order = some s) : Attended [] s := by
  have hrouter : s.router = TopicRouter.empty := by
    unfold State.start at h
    split_ifs at h
    rw [← Option.some.inj h]
  refine ⟨fun x pattern group hx => ?_, fun n hn => absurd rfl hn⟩
  rw [hrouter] at hx
  cases hx

/-- A connection that was there is there after a step, and attends if it did, unless it has
unsubscribed. -/
theorem Attends.getElem? (h : Attends s a t) {n : ℕ} {c : Conn} (hn : s.conns[n]? = some c) :
    ∃ c', t.conns[n]? = some c' ∧ c'.sock = c.sock ∧
      (c'.attends = c.attends ∨ t.router = s.router.unsubscribe c.sock) := by
  cases h with
  | accept sock ha hrouter hconns =>
    refine ⟨c, ?_, rfl, .inl rfl⟩
    rw [hconns, List.getElem?_append_left (List.getElem?_eq_some_iff.mp hn).1, hn]
  | subscribe _ _ _ _ _ _ _ _ _ _ _ hconns | keep _ hconns =>
    exact ⟨c, by rw [hconns, hn], rfl, .inl rfl⟩
  | unsubscribe k c₀ closing ha hk hpc hrouter hconns =>
    rw [hconns]
    by_cases hkn : k = n
    · subst hkn
      obtain rfl := Option.some.inj (hk.symm.trans hn)
      exact ⟨_, getElem?_goTo_self _ hn, rfl, .inr hrouter⟩
    · exact ⟨c, by rw [getElem?_goTo_of_ne hkn, hn], rfl, .inl rfl⟩
  | goOn k c₀ pc hk hattends hrouter hconns =>
    rw [hconns]
    by_cases hkn : k = n
    · subst hkn
      obtain rfl := Option.some.inj (hk.symm.trans hn)
      exact ⟨_, getElem?_goTo_self _ hn, rfl, .inl hattends⟩
    · exact ⟨c, by rw [getElem?_goTo_of_ne hkn, hn], rfl, .inl rfl⟩

/-- A connection that attends after a step did so before, or is the one that was accepted. -/
theorem Attends.attends_of_getElem? (h : Attends s a t) {n : ℕ} {c : Conn}
    (hn : t.conns[n]? = some c) (hattends : c.attends = true) :
    (∃ c₀, s.conns[n]? = some c₀ ∧ c₀.attends = true ∧ c₀.sock = c.sock) ∨
      ∃ sock, a = .accept sock ∧ n = s.conns.length ∧ c = ⟨sock, .reading⟩ := by
  cases h with
  | accept sock ha hrouter hconns =>
    rw [hconns, List.getElem?_append] at hn
    split_ifs at hn with hlt
    · exact .inl ⟨c, hn, hattends, rfl⟩
    · have hzero : n - s.conns.length = 0 := by
        simpa using (List.getElem?_eq_some_iff.mp hn).1
      exact .inr ⟨sock, ha, by omega, by simpa [hzero] using hn.symm⟩
  | subscribe _ _ _ _ _ _ _ _ _ _ _ hconns | keep _ hconns =>
    exact .inl ⟨c, hconns ▸ hn, hattends, rfl⟩
  | unsubscribe k c₀ closing ha hk hpc hrouter hconns =>
    rcases getElem?_goTo (hconns ▸ hn) with ⟨rfl, c₁, hc₁, rfl⟩ | ⟨-, hn⟩
    · obtain rfl := Option.some.inj (hc₁.symm.trans hk)
      refine .inl ⟨c₁, hk, ?_, rfl⟩
      cases closing <;> simp [Conn.attends, Conn.isOpen, ClientPc.leaving, hpc]
    · exact .inl ⟨c, hn, hattends, rfl⟩
  | goOn k c₀ pc hk hsame hrouter hconns =>
    rcases getElem?_goTo (hconns ▸ hn) with ⟨rfl, c₁, hc₁, rfl⟩ | ⟨-, hn⟩
    · obtain rfl := Option.some.inj (hc₁.symm.trans hk)
      exact .inl ⟨c₁, hk, hsame.symm.trans hattends, rfl⟩
    · exact .inl ⟨c, hn, hattends, rfl⟩

/-- A member that the router holds after a step it held before, or the step has subscribed it. -/
theorem Attends.mem_members (h : Attends s a t) {x : ClientId} {pattern group : Bytes}
    (hx : x ∈ t.router.members pattern group) :
    x ∈ s.router.members pattern group ∨ ∃ n c g, t.conns[n]? = some c ∧ c.attends = true ∧
      c.sock = x ∧ group = TopicRouter.groupKey g x ∧ (pattern, g) ∈ subscriptions n [a] := by
  cases h with
  | accept sock ha hrouter hconns | goOn k c₀ pc hk hattends hrouter hconns =>
    exact .inl (hrouter ▸ hx)
  | keep hmembers hconns => exact .inl (hmembers pattern group ▸ hx)
  | unsubscribe k c₀ closing ha hk hpc hrouter hconns =>
    rw [hrouter, TopicRouter.members_unsubscribe] at hx
    exact .inl (List.mem_filter.mp hx).1
  | subscribe n c type msg_id payload ha hn hpc htype htopic hrouter hconns =>
    rw [hrouter, TopicRouter.members_subscribe] at hx
    split_ifs at hx with hnew
    · rcases List.mem_append.mp hx with hx | hx
      · exact .inl hx
      · obtain rfl := List.mem_singleton.mp hx
        refine .inr ⟨n, c, (decodeSubscribe payload).group, hconns ▸ hn, ?_, rfl, hnew.2.1, ?_⟩
        · simp [Conn.attends, Conn.isOpen, hpc]
        · rw [mem_subscriptions_singleton, hnew.1]
          exact ⟨type, msg_id, payload, ha, htype, htopic, rfl⟩
    · exact .inl hx

/-- A member stays until a thread under its descriptor unsubscribes. -/
theorem Attends.mem_members_of_mem (h : Attends s a t) {x : ClientId} {pattern group : Bytes}
    (hx : x ∈ s.router.members pattern group) :
    x ∈ t.router.members pattern group ∨ ∃ (n : ℕ) (c : Conn) (closing : Bool),
      s.conns[n]? = some c ∧ c.pc = .unsubscribe closing ∧ c.sock = x := by
  cases h with
  | accept sock ha hrouter hconns | goOn k c₀ pc hk hattends hrouter hconns =>
    exact .inl (hrouter ▸ hx)
  | keep hmembers hconns => exact .inl (hmembers pattern group ▸ hx)
  | subscribe n c type msg_id payload ha hn hpc htype htopic hrouter hconns =>
    rw [hrouter]
    exact .inl (members_subset_subscribe _ _ _ _ _ _ hx)
  | unsubscribe k c closing ha hk hpc hrouter hconns =>
    by_cases hsock : c.sock = x
    · exact .inr ⟨k, c, closing, hk, hpc, hsock⟩
    · rw [hrouter, TopicRouter.members_unsubscribe]
      exact .inl (List.mem_filter.mpr ⟨hx, by simpa using Ne.symm hsock⟩)

/-- No connection is forgotten. -/
theorem Attends.length_le (h : Attends s a t) : s.conns.length ≤ t.conns.length := by
  cases h <;> simp_all [goTo]

/-- Only `accept` adds one. -/
theorem Attends.length_eq (h : Attends s a t) (hne : ∀ sock, a ≠ .accept sock) :
    t.conns.length = s.conns.length := by
  cases h with
  | accept sock ha => exact absurd ha (hne sock)
  | subscribe _ _ _ _ _ _ _ _ _ _ _ hconns | keep _ hconns => rw [hconns]
  | unsubscribe _ _ _ _ _ _ _ hconns | goOn _ _ _ _ _ _ hconns => simp [hconns, goTo]

/-- Every step keeps the members attended. -/
theorem Attended.step (hs : Attended as s) (h : s.step cfg a = some t) :
    Attended (as ++ [a]) t := by
  have hattends := step_attends h
  refine ⟨fun x pattern group hx => ?_, fun n hn => ?_⟩
  · rcases hattends.mem_members hx with hold | ⟨n, c, g, hn, hc, hsock, hgroup, hsub⟩
    · obtain ⟨n, c, g, hn, hc, rfl, hgroup, hsub⟩ := hs.members x pattern group hold
      obtain ⟨c', hn', hsock, hsame⟩ := hattends.getElem? hn
      rcases hsame with hsame | hrouter
      · exact ⟨n, c', g, hn', hsame.trans hc, hsock, hgroup,
          subscriptions_append n as [a] ▸ List.mem_append_left _ hsub⟩
      · -- the thread has unsubscribed, so the router holds nothing for its descriptor
        rw [hrouter, TopicRouter.members_unsubscribe] at hx
        exact absurd rfl (of_decide_eq_true (List.mem_filter.mp hx).2)
    · exact ⟨n, c, g, hn, hc, hsock, hgroup,
        subscriptions_append n as [a] ▸ List.mem_append_right _ hsub⟩
  · obtain ⟨p, hp⟩ := List.exists_mem_of_ne_nil _ hn
    rw [subscriptions_append] at hp
    rcases List.mem_append.mp hp with hp | hp
    · exact (hs.known n (List.ne_nil_of_mem hp)).trans_le hattends.length_le
    · obtain ⟨type, msg_id, payload, rfl, -⟩ := mem_subscriptions_singleton.mp hp
      exact (lt_length_of_frame h).trans_le hattends.length_le

/-! ## Open connections -/

/-- A connection that is open after a step, when no client sends an ERROR_RESP, was open and is in
no handler of one, or is the one that was accepted. -/
theorem Registers.isOpen_of_getElem?
    (hserving : ∀ c ∈ s.conns, c.isOpen = true → c.pc.serving = true)
    (h : Registers s a t) {n : ℕ} {c : Conn} (hn : t.conns[n]? = some c) (hopen : c.isOpen = true) :
    c.pc.serving = true ∧ ((∃ c₀, s.conns[n]? = some c₀ ∧ c₀.isOpen = true ∧ c₀.sock = c.sock) ∨
      ∃ sock, a = .accept sock ∧ n = s.conns.length ∧ c = ⟨sock, .reading⟩) := by
  have hsame : s.conns[n]? = some c → c.pc.serving = true ∧
      ((∃ c₀, s.conns[n]? = some c₀ ∧ c₀.isOpen = true ∧ c₀.sock = c.sock) ∨
        ∃ sock, a = .accept sock ∧ n = s.conns.length ∧ c = ⟨sock, .reading⟩) := fun hn =>
    ⟨hserving c (List.mem_of_getElem? hn) hopen, .inl ⟨c, hn, hopen, rfl⟩⟩
  cases h with
  | accept sock ha hfree hclients hrouter hconns =>
    rw [hconns, List.getElem?_append] at hn
    split_ifs at hn with hlt
    · exact hsame hn
    · have hzero : n - s.conns.length = 0 := by
        simpa using (List.getElem?_eq_some_iff.mp hn).1
      obtain rfl : c = ⟨sock, .reading⟩ := by simpa [hzero] using hn.symm
      exact ⟨rfl, .inr ⟨sock, ha, by omega, rfl⟩⟩
  | hangup k c₀ hk hpc hclients hrouter hconns | erase k c₀ hk hpc hclients hrouter hconns
  | unsubscribe k c₀ hk hpc hclients hrouter hconns =>
    rcases getElem?_goTo (hconns ▸ hn) with ⟨rfl, c₁, hc₁, rfl⟩ | ⟨-, hn⟩
    · cases hopen
    · exact hsame hn
  | goOn k c₀ pc hk hstays hclients hrouter hconns =>
    rcases getElem?_goTo (hconns ▸ hn) with ⟨rfl, c₁, hc₁, rfl⟩ | ⟨-, hn⟩
    · obtain rfl := Option.some.inj (hc₁.symm.trans hk)
      rcases hstays with ⟨hwas, hpc⟩ | ⟨-, hclosed, -⟩
      · exact ⟨hpc, .inl ⟨c₁, hk, Conn.isOpen_of_serving hwas, rfl⟩⟩
      · simp [hclosed] at hopen
    · exact hsame hn
  | keep hclients hmembers hconns => exact hsame (hconns ▸ hn)

/-- A member of a group stays while no thread but one that is serving attends to its descriptor. -/
theorem mem_members_of_step (h : s.step cfg a = some t) {x : ClientId} {pattern group : Bytes}
    (hx : x ∈ s.router.members pattern group) (hserving : ∀ c ∈ s.conns, c.attends = true →
      c.sock = x → c.pc.serving = true) : x ∈ t.router.members pattern group := by
  rcases (step_attends h).mem_members_of_mem hx with hmem | ⟨n, c, closing, hn, hpc, hsock⟩
  · exact hmem
  · have hattends : c.attends = true := by
      cases closing <;> simp [Conn.attends, Conn.isOpen, ClientPc.leaving, hpc]
    have hserves := hserving c (List.mem_of_getElem? hn) hattends hsock
    rw [hpc] at hserves
    cases hserves

end EventQueue.Broker
