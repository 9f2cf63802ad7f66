import EventQueue.Broker.Flow
import EventQueue.Broker.Subscriptions

/-!
# The registration of a connection

A client's identifier is its socket's descriptor, which the operating system gives out again as soon
as the socket is closed. The thread of a connection closes the socket first and cleans up after
that: it erases `clients_[id]`, and then the router forgets `id`. A connection that is accepted in
between under the same descriptor is registered and erased by its predecessor
(`erased_by_predecessor`), or loses its subscriptions to it.

A connection keeps its registration and its subscriptions in every run in which `accept` returns a
descriptor only when no earlier connection under it has still to erase or to unsubscribe
(`acceptsReleased`).
-/

namespace EventQueue.Broker

open Transition (Run exec execChecked run_of_execChecked)

/-- The read loop is left, and `clients_.erase` or `router.unsubscribe` is still to come. -/
def ClientPc.leaving : ClientPc → Bool
  | .eraseClient | .unsubscribe true => true
  | _ => false

/-- In the read loop, or in the handler of a frame that is not an ERROR_RESP. -/
def ClientPc.serving : ClientPc → Bool
  | .reading | .publishAppend _ | .publishPush _ | .ackEngine _ | .ackWal _ | .nackLock _
  | .nackPush _ => true
  | _ => false

/-- A client sends no ERROR_RESP, which is the broker's own sentinel. -/
def sendsNoErrorResp : Action → Bool
  | .frame _ type _ _ => MessageType.ofByte type ≠ some .errorResp
  | _ => true

/-- A descriptor is accepted only when no connection under it has still to erase or to
unsubscribe. -/
def acceptsReleased (s : State) : Action → Bool
  | .accept sock => s.conns.all fun c => !c.pc.leaving || c.sock ≠ sock
  | _ => true

/-- The condition on a step. -/
def keepsRegistration (s : State) (a : Action) : Bool := sendsNoErrorResp a && acceptsReleased s a

/-- The subscriptions that a connection makes, with their topics and groups. -/
def subscriptions (n : ℕ) (as : List Action) : List (Bytes × Bytes) :=
  as.filterMap fun
    | .frame k type _ payload =>
      if k = n ∧ MessageType.ofByte type = some .subscribe ∧
          (decodeSubscribe payload).topic ≠ [] then
        some ((decodeSubscribe payload).topic, (decodeSubscribe payload).group)
      else none
    | _ => none

variable {cfg : Config} {s t : State} {a : Action} {as : List Action} {file : Bytes}
  {order : List Message}

/-! ## What a step does to the registrations -/

/-- The thread of a connection goes on, and neither takes up nor gives up its registration. -/
def Stays (c : Conn) (pc : ClientPc) : Prop :=
  c.pc.serving = true ∧ pc.serving = true ∨
    c.isOpen = false ∧ Conn.isOpen { c with pc } = false ∧ pc.leaving = false

/-- What a step does to `clients_`, to the subscriptions, and to the connections. -/
inductive Registers (s : State) (a : Action) (t : State) : Prop
  /-- A connection is accepted. -/
  | accept (sock : ClientId) (ha : a = .accept sock)
      (hfree : ∀ c ∈ s.conns, c.isOpen = true → c.sock ≠ sock)
      (hclients : t.clients = s.clients.insert sock s.conns.length) (hrouter : t.router = s.router)
      (hconns : t.conns = s.conns ++ [⟨sock, .reading⟩])
  /-- A connection is closed. -/
  | hangup (n : ℕ) (c : Conn) (hn : s.conns[n]? = some c) (hpc : c.pc = .reading)
      (hclients : t.clients = s.clients) (hrouter : t.router = s.router)
      (hconns : t.conns = goTo s.conns n .eraseClient)
  /-- `clients_.erase`. -/
  | erase (n : ℕ) (c : Conn) (hn : s.conns[n]? = some c) (hpc : c.pc = .eraseClient)
      (hclients : t.clients = s.clients.erase c.sock) (hrouter : t.router = s.router)
      (hconns : t.conns = goTo s.conns n (.unsubscribe true))
  /-- `router.unsubscribe`. -/
  | unsubscribe (n : ℕ) (c : Conn) (hn : s.conns[n]? = some c) (hpc : c.pc = .unsubscribe true)
      (hclients : t.clients = s.clients) (hrouter : t.router = s.router.unsubscribe c.sock)
      (hconns : t.conns = goTo s.conns n (.disconnectLock true))
  /-- A thread goes on. -/
  | goOn (n : ℕ) (c : Conn) (pc : ClientPc) (hn : s.conns[n]? = some c) (hstays : Stays c pc)
      (hclients : t.clients = s.clients) (hrouter : t.router = s.router)
      (hconns : t.conns = goTo s.conns n pc)
  /-- No thread of a connection goes on, and no subscription is lost. -/
  | keep (hclients : t.clients = s.clients) (hmembers : ∀ pattern group,
      s.router.members pattern group ⊆ t.router.members pattern group)
      (hconns : t.conns = s.conns)

/-- Failing a delivery leaves the registrations alone. -/
theorem Fails.registry_eq {key : DeliveryKey} (h : Fails cfg s key t) :
    t.clients = s.clients ∧ t.router = s.router := by
  cases h <;> exact ⟨rfl, rfl⟩

/-- `subscribe` loses no member. -/
theorem members_subset_subscribe (r : TopicRouter) (topic group : Bytes) (c : ClientId)
    (pattern g : Bytes) : r.members pattern g ⊆ (r.subscribe topic group c).members pattern g := by
  rw [TopicRouter.members_subscribe]
  split_ifs
  · exact List.subset_append_left _ _
  · exact List.Subset.refl _

/-- `route` loses no member. -/
theorem members_subset_route (r : TopicRouter) (msg : Message) (pattern g : Bytes) :
    r.members pattern g ⊆ (r.route msg).2.members pattern g := by
  rw [TopicRouter.members_route]
  exact List.Subset.refl _

/-- `subscribe` adds the client. -/
theorem mem_members_subscribe (r : TopicRouter) (topic group : Bytes) (c : ClientId) :
    c ∈ (r.subscribe topic group c).members topic (TopicRouter.groupKey group c) := by
  rw [TopicRouter.members_subscribe]
  split_ifs with h
  · simp
  · by_contra hc
    exact h ⟨rfl, rfl, hc⟩

/-- A thread whose connection is open, and that is in no handler of an ERROR_RESP frame, is not on
its way out. -/
theorem not_of_serving {c : Conn} (hc : c.isOpen = true → c.pc.serving = true) :
    c.pc ≠ .unsubscribe false ∧ c.pc ≠ .disconnectLock false ∧ c.pc ≠ .disconnectLoop false := by
  refine ⟨fun h => ?_, fun h => ?_, fun h => ?_⟩ <;> simp [Conn.isOpen, h, ClientPc.serving] at hc

/-- What a step does to the registrations, when no client sends an ERROR_RESP. -/
theorem step_registers (hserving : ∀ c ∈ s.conns, c.isOpen = true → c.pc.serving = true)
    (hok : sendsNoErrorResp a = true) (h : s.step cfg a = some t) : Registers s a t := by
  -- Steps that leave the tables and the connections alone.
  have hkeep : ∀ u : State, u.clients = s.clients → u.router = s.router → u.conns = s.conns →
      Registers s a u := fun u hclients hrouter hconns =>
    .keep hclients (fun _ _ => by rw [hrouter]; exact List.Subset.refl _) hconns
  -- No open connection is on its way out, for want of an ERROR_RESP.
  have hpolite : ∀ {n : ℕ} {c : Conn}, s.conns[n]? = some c → c.pc ≠ .unsubscribe false ∧
      c.pc ≠ .disconnectLock false ∧ c.pc ≠ .disconnectLoop false := fun {n c} hn =>
    not_of_serving (hserving c (List.mem_of_getElem? hn))
  cases step_sound h with
  | accept sock hfree => exact .accept sock rfl hfree rfl rfl rfl
  | subscribe n c type msg_id payload hn hpc htype =>
    exact .keep rfl (members_subset_subscribe _ _ _ _) rfl
  | publish n c type msg_id payload m hn hpc | ack n c type msg_id payload hn hpc
  | nack n c type msg_id payload hn hpc =>
    exact .goOn n c _ hn (.inl ⟨by rw [hpc]; rfl, rfl⟩) rfl rfl rfl
  | errorResp n c type msg_id payload hn hpc htype => simp [sendsNoErrorResp, htype] at hok
  | hangup n c hn hpc => exact .hangup n c hn hpc rfl rfl rfl
  | publishAppend n c m hn hpc | publishPush n c m main_queue hn hpc | ackEngine n c msg_id hn hpc
  | ackWal n c msg_id hn hpc | nackNone n c msg_id hn hpc | nackLock n c msg_id entry hn hpc =>
    exact .goOn n c _ hn (.inl ⟨by rw [hpc]; rfl, rfl⟩) rfl rfl rfl
  | nackPush n c msg_id u hn hpc hfail =>
    exact .goOn n c _ hn (.inl ⟨by rw [hpc]; rfl, rfl⟩) hfail.registry_eq.1 hfail.registry_eq.2
      (by rw [hfail.conns_eq])
  | eraseClient n c hn hpc => exact .erase n c hn hpc rfl rfl rfl
  | unsubscribe n c closing hn hpc =>
    cases closing with
    | false => exact absurd hpc (hpolite hn).1
    | true => exact .unsubscribe n c hn hpc rfl rfl rfl
  | disconnectLock n c closing hn hpc hmu =>
    cases closing with
    | false => exact absurd hpc (hpolite hn).2.1
    | true => exact .goOn n c _ hn (.inr ⟨by simp [Conn.isOpen, hpc], rfl, rfl⟩) rfl rfl rfl
  | disconnectPush n c closing key t hn hpc hkey hfail =>
    exact hkeep _ hfail.registry_eq.1 hfail.registry_eq.2 hfail.conns_eq
  | disconnectDone n c closing hn hpc hkey =>
    cases closing with
    | false => exact absurd hpc (hpolite hn).2.2
    | true => exact .goOn n c _ hn (.inr ⟨by simp [Conn.isOpen, hpc], rfl, rfl⟩) rfl rfl rfl
  | drop m hpc hnone => exact .keep rfl (members_subset_route s.router m) rfl
  | route m tgt todo hpc hperm => exact .keep rfl (members_subset_route s.router m) rfl
  | scanPush now deadline key rest entry t hpc hhead hnow hentry hdue hfail =>
    exact hkeep _ hfail.registry_eq.1 hfail.registry_eq.2 hfail.conns_eq
  | _ => exact hkeep _ rfl rfl rfl

/-- A frame comes from a connection that is there. -/
theorem lt_length_of_frame {n : ℕ} {type : UInt8} {msg_id : UInt64} {payload : Bytes}
    (h : s.step cfg (.frame n type msg_id payload) = some t) : n < s.conns.length := by
  simp only [State.step] at h
  split at h
  · cases h
  · rename_i c hn
    exact (List.getElem?_eq_some_iff.mp hn).1

/-- A SUBSCRIBE frame with a topic subscribes its sender. -/
theorem mem_members_of_frame {n : ℕ} {c : Conn} {type : UInt8} {msg_id : UInt64} {payload : Bytes}
    (h : s.step cfg (.frame n type msg_id payload) = some t) (hn : s.conns[n]? = some c)
    (htype : MessageType.ofByte type = some .subscribe)
    (htopic : (decodeSubscribe payload).topic ≠ []) :
    c.sock ∈ t.router.members (decodeSubscribe payload).topic
      (TopicRouter.groupKey (decodeSubscribe payload).group c.sock) := by
  simp only [State.step, hn] at h
  split_ifs at h with hreading
  obtain rfl := Option.some.inj h
  simp only [State.onFrame, htype]
  rw [if_neg (by simpa using htopic)]
  exact mem_members_subscribe _ _ _ _

/-! ## The invariant -/

/-- The invariant, after a list of actions. -/
structure Registered (as : List Action) (s : State) : Prop where
  /-- No thread handles an ERROR_RESP frame. -/
  serving : ∀ c ∈ s.conns, c.isOpen = true → c.pc.serving = true
  /-- An open connection is registered. -/
  clients : ∀ n c, s.conns[n]? = some c → c.isOpen = true → s.clients.lookup c.sock = some n
  /-- It has the subscriptions that it made. -/
  members : ∀ n c, s.conns[n]? = some c → c.isOpen = true → ∀ p ∈ subscriptions n as,
    c.sock ∈ s.router.members p.1 (TopicRouter.groupKey p.2 c.sock)
  /-- No connection under the same descriptor has still to erase or to unsubscribe. -/
  released : ∀ c ∈ s.conns, c.isOpen = true → ∀ c' ∈ s.conns, c'.pc.leaving = true →
    c'.sock ≠ c.sock
  /-- Only connections that are there have made subscriptions. -/
  known : ∀ n, subscriptions n as ≠ [] → n < s.conns.length

/-- Two open connections under one descriptor are the same. -/
theorem Registered.eq_of_sock (hs : Registered as s) {n k : ℕ} {c c' : Conn}
    (hn : s.conns[n]? = some c) (hopen : c.isOpen = true) (hk : s.conns[k]? = some c')
    (hopen' : c'.isOpen = true) (hsock : c.sock = c'.sock) : n = k := by
  have h₁ := hs.clients n c hn hopen
  have h₂ := hs.clients k c' hk hopen'
  rw [hsock, h₂] at h₁
  exact (Option.some.inj h₁).symm

/-- A place from which a thread is serving is not one on the way out. -/
theorem ClientPc.leaving_of_serving {pc : ClientPc} (h : pc.serving = true) :
    pc.leaving = false := by
  cases pc <;> simp_all [serving, leaving]

/-- A thread that is serving has its socket open. -/
theorem Conn.isOpen_of_serving {c : Conn} (h : c.pc.serving = true) : c.isOpen = true := by
  unfold isOpen
  split <;> simp_all [ClientPc.serving]

/-- A connection keeps its descriptor. -/
theorem Registers.sock_eq (h : Registers s a t) {n : ℕ} {c c' : Conn} (hn : s.conns[n]? = some c)
    (hn' : t.conns[n]? = some c') : c'.sock = c.sock := by
  have hgoTo : ∀ (k : ℕ) (pc : ClientPc), t.conns = goTo s.conns k pc → c'.sock = c.sock := by
    intro k pc hconns
    rw [hconns] at hn'
    rcases getElem?_goTo hn' with ⟨rfl, c₀, hc₀, rfl⟩ | ⟨-, hold⟩
    · rw [Option.some.inj (hc₀.symm.trans hn)]
    · rw [Option.some.inj (hold.symm.trans hn)]
  cases h with
  | accept sock ha hfree hclients hrouter hconns =>
    rw [hconns, List.getElem?_append_left (List.getElem?_eq_some_iff.mp hn).1, hn] at hn'
    rw [Option.some.inj hn']
  | hangup k c₀ hk hpc hclients hrouter hconns | erase k c₀ hk hpc hclients hrouter hconns
  | unsubscribe k c₀ hk hpc hclients hrouter hconns
  | goOn k c₀ pc hk hstays hclients hrouter hconns =>
    exact hgoTo _ _ hconns
  | keep hclients hmembers hconns =>
    rw [hconns, hn] at hn'
    rw [Option.some.inj hn']

/-- No connection is forgotten. -/
theorem Registers.length_le (h : Registers s a t) : s.conns.length ≤ t.conns.length := by
  cases h <;> simp_all [goTo]

/-- The registrations survive a step of one thread, when the thread opens nothing, is on the way out
only if it was or if it closes its connection, and takes nothing from an open connection. -/
theorem Registered.goTo (hs : Registered as s) {n : ℕ} {c : Conn} {pc : ClientPc}
    (hn : s.conns[n]? = some c) (hconns : t.conns = goTo s.conns n pc)
    (hopens : Conn.isOpen { c with pc } = true → c.isOpen = true ∧ pc.serving = true)
    (hleaves : pc.leaving = true → c.pc.leaving = true ∨ c.isOpen = true)
    (hclients : ∀ c' ∈ s.conns, c'.isOpen = true →
      t.clients.lookup c'.sock = s.clients.lookup c'.sock)
    (hmembers : ∀ c' ∈ s.conns, c'.isOpen = true → ∀ pattern group,
      c'.sock ∈ s.router.members pattern group → c'.sock ∈ t.router.members pattern group) :
    Registered as t := by
  -- A connection that is open was open, under the same descriptor.
  have hold : ∀ {k : ℕ} {c' : Conn}, t.conns[k]? = some c' → c'.isOpen = true →
      c'.pc.serving = true ∧ ∃ c₀, s.conns[k]? = some c₀ ∧ c₀.isOpen = true ∧
        c₀.sock = c'.sock := by
    intro k c' hk hopen
    rcases getElem?_goTo (hconns ▸ hk) with ⟨rfl, c₀, hc₀, rfl⟩ | ⟨-, hk⟩
    · obtain rfl := Option.some.inj (hc₀.symm.trans hn)
      exact ⟨(hopens hopen).2, c₀, hn, (hopens hopen).1, rfl⟩
    · exact ⟨hs.serving c' (List.mem_of_getElem? hk) hopen, c', hk, hopen, rfl⟩
  refine ⟨fun c' hc' hopen => ?_, fun k c' hk hopen => ?_, fun k c' hk hopen p hp => ?_,
    fun c₁ hc₁ hopen c₂ hc₂ hleaving => ?_, fun k hk => ?_⟩
  · obtain ⟨k, hk⟩ := List.mem_iff_getElem?.mp hc'
    exact (hold hk hopen).1
  · obtain ⟨-, c₀, hk₀, hopen₀, hsock⟩ := hold hk hopen
    rw [← hsock, hclients c₀ (List.mem_of_getElem? hk₀) hopen₀]
    exact hs.clients k c₀ hk₀ hopen₀
  · obtain ⟨-, c₀, hk₀, hopen₀, hsock⟩ := hold hk hopen
    rw [← hsock]
    exact hmembers c₀ (List.mem_of_getElem? hk₀) hopen₀ _ _ (hs.members k c₀ hk₀ hopen₀ p hp)
  · obtain ⟨k, hk⟩ := List.mem_iff_getElem?.mp hc₁
    obtain ⟨-, c₀, hk₀, hopen₀, hsock⟩ := hold hk hopen
    obtain ⟨j, hj⟩ := List.mem_iff_getElem?.mp hc₂
    rw [← hsock]
    rcases getElem?_goTo (hconns ▸ hj) with ⟨rfl, c₃, hc₃, rfl⟩ | ⟨-, hj⟩
    · obtain rfl := Option.some.inj (hc₃.symm.trans hn)
      rcases hleaves hleaving with hwas | hwas
      · exact hs.released c₀ (List.mem_of_getElem? hk₀) hopen₀ c₃ (List.mem_of_getElem? hn) hwas
      · -- the connection that is closed was the only open one under its descriptor
        intro heq
        obtain rfl := hs.eq_of_sock hn hwas hk₀ hopen₀ heq
        obtain rfl := Option.some.inj (hk.symm.trans hj)
        have hserving := (hold hk hopen).1
        rw [ClientPc.leaving_of_serving hserving] at hleaving
        cases hleaving
    · exact hs.released c₀ (List.mem_of_getElem? hk₀) hopen₀ c₂ (List.mem_of_getElem? hj) hleaving
  · have := hs.known k hk
    simpa [hconns, EventQueue.Broker.goTo] using this

/-- Accepting a connection leaves the others registered, and registers the new one. -/
theorem Registered.accept (hs : Registered as s) {sock : ClientId}
    (hok : acceptsReleased s (.accept sock) = true)
    (hfree : ∀ c ∈ s.conns, c.isOpen = true → c.sock ≠ sock)
    (hclients : t.clients = s.clients.insert sock s.conns.length) (hrouter : t.router = s.router)
    (hconns : t.conns = s.conns ++ [⟨sock, .reading⟩]) : Registered as t := by
  -- The connections are the old ones, at their places, and the new one at the end.
  have hnew : ∀ {n : ℕ} {c : Conn}, t.conns[n]? = some c →
      s.conns[n]? = some c ∨ n = s.conns.length ∧ c = ⟨sock, .reading⟩ := by
    intro n c hn
    rw [hconns, List.getElem?_append] at hn
    split_ifs at hn with hlt
    · exact .inl hn
    · have hzero : n - s.conns.length = 0 := by
        have := (List.getElem?_eq_some_iff.mp hn).1
        simpa using this
      exact .inr ⟨by omega, by simpa [hzero] using hn.symm⟩
  have hmem : ∀ c ∈ t.conns, c ∈ s.conns ∨ c = ⟨sock, .reading⟩ := by simp [hconns]
  have hall : ∀ c ∈ s.conns, c.pc.leaving = false ∨ c.sock ≠ sock := by
    simpa [acceptsReleased] using hok
  refine ⟨fun c hc hopen => ?_, fun n c hn hopen => ?_, fun n c hn hopen p hp => ?_,
    fun c hc hopen c' hc' hleaving => ?_, fun k hk => ?_⟩
  · rcases hmem c hc with hc | rfl
    · exact hs.serving c hc hopen
    · rfl
  · rcases hnew hn with hn | ⟨rfl, rfl⟩
    · have hne := hfree c (List.mem_of_getElem? hn) hopen
      -- Its descriptor is that of no other open connection.
      rw [hclients, AList.lookup_insert_ne hne]
      exact hs.clients n c hn hopen
    · rw [hclients]
      exact AList.lookup_insert _
  · rcases hnew hn with hn | ⟨rfl, rfl⟩
    · exact hrouter ▸ hs.members n c hn hopen p hp
    · exact absurd (hs.known _ (List.ne_nil_of_mem hp)) (lt_irrefl _)
  · rcases hmem c' hc' with hc' | rfl
    · rcases hmem c hc with hc | rfl
      · exact hs.released c hc hopen c' hc' hleaving
      · rcases hall c' hc' with hfalse | hne
        · simp [hfalse] at hleaving
        · exact hne
    · cases hleaving
  · have := hs.known k hk
    simp only [hconns, List.length_append, List.length_singleton]
    omega

/-- Registrations and subscriptions survive a step. -/
theorem Registered.survives (hs : Registered as s) (hok : acceptsReleased s a = true)
    (h : Registers s a t) : Registered as t := by
  -- What a thread on its way out takes away is not that of an open connection.
  have hne : ∀ {n : ℕ} {c : Conn}, s.conns[n]? = some c → c.pc.leaving = true →
      ∀ c' ∈ s.conns, c'.isOpen = true → c'.sock ≠ c.sock := fun hn hleaving c' hc' hopen =>
    (hs.released c' hc' hopen _ (List.mem_of_getElem? hn) hleaving).symm
  cases h with
  | accept sock ha hfree hclients hrouter hconns =>
    exact hs.accept (ha ▸ hok) hfree hclients hrouter hconns
  | hangup n c hn hpc hclients hrouter hconns =>
    refine hs.goTo hn hconns (fun h => by cases h) (fun _ => .inr (by simp [Conn.isOpen, hpc]))
      (fun c' _ _ => by rw [hclients]) fun c' _ _ pattern group hmem => hrouter ▸ hmem
  | erase n c hn hpc hclients hrouter hconns =>
    have hleaving : c.pc.leaving = true := by rw [hpc]; rfl
    refine hs.goTo hn hconns (fun h => by cases h) (fun _ => .inl hleaving)
      (fun c' hc' hopen => ?_) fun c' _ _ pattern group hmem => hrouter ▸ hmem
    rw [hclients, AList.lookup_erase_ne (hne hn hleaving c' hc' hopen)]
  | unsubscribe n c hn hpc hclients hrouter hconns =>
    have hleaving : c.pc.leaving = true := by rw [hpc]; rfl
    refine hs.goTo hn hconns (fun h => by cases h) (fun _ => .inl hleaving)
      (fun c' _ _ => by rw [hclients]) fun c' hc' hopen pattern group hmem => ?_
    rw [hrouter, TopicRouter.members_unsubscribe, List.mem_filter]
    exact ⟨hmem, by simpa using hne hn hleaving c' hc' hopen⟩
  | goOn n c pc hn hstays hclients hrouter hconns =>
    refine hs.goTo hn hconns (fun hopen => ?_) (fun hleaving => ?_) (fun c' _ _ => by rw [hclients])
      fun c' _ _ pattern group hmem => hrouter ▸ hmem
    · rcases hstays with ⟨hwas, hserving⟩ | ⟨-, hclosed, -⟩
      · exact ⟨Conn.isOpen_of_serving hwas, hserving⟩
      · simp [hclosed] at hopen
    · rcases hstays with ⟨-, hserving⟩ | ⟨-, -, hnot⟩
      · simp [ClientPc.leaving_of_serving hserving] at hleaving
      · simp [hnot] at hleaving
  | keep hclients hmembers hconns =>
    refine ⟨hconns ▸ hs.serving, fun n c hn hopen => ?_, fun n c hn hopen p hp => ?_,
      hconns ▸ hs.released, hconns ▸ hs.known⟩
    · rw [hclients]
      exact hs.clients n c (hconns ▸ hn) hopen
    · exact hmembers _ _ (hs.members n c (hconns ▸ hn) hopen p hp)

theorem subscriptions_append (n : ℕ) (as bs : List Action) :
    subscriptions n (as ++ bs) = subscriptions n as ++ subscriptions n bs :=
  List.filterMap_append

/-- The subscription that one action makes is that of a SUBSCRIBE frame with a topic. -/
theorem mem_subscriptions_singleton {n : ℕ} {p : Bytes × Bytes} :
    p ∈ subscriptions n [a] ↔ ∃ type msg_id payload, a = .frame n type msg_id payload ∧
      MessageType.ofByte type = some .subscribe ∧ (decodeSubscribe payload).topic ≠ [] ∧
      p = ((decodeSubscribe payload).topic, (decodeSubscribe payload).group) := by
  cases a with
  | frame k type msg_id payload =>
    simp only [subscriptions, List.filterMap_cons, List.filterMap_nil]
    split_ifs with h
    · obtain ⟨rfl, htype, htopic⟩ := h
      constructor
      · intro hp
        exact ⟨type, msg_id, payload, rfl, htype, htopic, by simpa using hp⟩
      · rintro ⟨type', msg_id', payload', ha, -, -, rfl⟩
        cases ha
        simp
    · constructor
      · intro hp
        simp at hp
      · rintro ⟨type', msg_id', payload', ha, htype, htopic, -⟩
        cases ha
        exact absurd ⟨rfl, htype, htopic⟩ h
  | _ => simp [subscriptions]

/-- A step that meets the condition keeps the invariant. -/
theorem Registered.step (hs : Registered as s) (hok : keepsRegistration s a = true)
    (h : s.step cfg a = some t) : Registered (as ++ [a]) t := by
  obtain ⟨hframe, haccept⟩ := Bool.and_eq_true_iff.mp hok
  have hregisters := step_registers hs.serving hframe h
  have ht := hs.survives haccept hregisters
  -- A frame comes from a connection that is there.
  have hframes : ∀ n, ∀ p ∈ subscriptions n [a], n < s.conns.length := by
    intro n p hp
    obtain ⟨type, msg_id, payload, rfl, -⟩ := mem_subscriptions_singleton.mp hp
    exact lt_length_of_frame h
  refine ⟨ht.serving, ht.clients, fun n c hn hopen p hp => ?_, ht.released, fun n hn => ?_⟩
  · rw [subscriptions_append] at hp
    rcases List.mem_append.mp hp with hp | hp
    · exact ht.members n c hn hopen p hp
    · -- a subscription that is made now
      have hlt := hframes n p hp
      obtain ⟨type, msg_id, payload, rfl, htype, htopic, rfl⟩ := mem_subscriptions_singleton.mp hp
      have hn₀ := List.getElem?_eq_getElem hlt
      rw [hregisters.sock_eq hn₀ hn]
      exact mem_members_of_frame h hn₀ htype htopic
  · obtain ⟨p, hp⟩ := List.exists_mem_of_ne_nil _ hn
    rw [subscriptions_append] at hp
    rcases List.mem_append.mp hp with hp | hp
    · exact ht.known n (List.ne_nil_of_mem hp)
    · exact (hframes n p hp).trans_le hregisters.length_le

/-- After a start no connection is open. -/
theorem registered_of_start (h : State.start cfg file order = some s) : Registered [] s := by
  have hconns := (wal_of_start h).2.1
  constructor <;> simp [hconns, subscriptions]

/-- Along a run the invariant holds. -/
theorem Registered.run (hs : Registered [] s)
    (hrun : Run (State.step cfg) (keepsRegistration · ·) s as t) : Registered as t := by
  induction hrun with
  | nil => exact hs
  | snoc _ hok h ih => exact ih.step hok h

/-- A connection that has not left its read loop is registered under its descriptor, and has every
subscription that it made: in every run in which clients send no ERROR_RESP and `accept` returns a
descriptor only when no earlier connection under it has still to erase or to unsubscribe. -/
theorem registration_kept (hstart : State.start cfg file order = some s)
    (hrun : Run (State.step cfg) (keepsRegistration · ·) s as t) (n : ℕ) (c : Conn)
    (hn : t.conns[n]? = some c) (hopen : c.isOpen = true) :
    t.clients.lookup c.sock = some n ∧ ∀ p ∈ subscriptions n as,
      c.sock ∈ t.router.members p.1 (TopicRouter.groupKey p.2 c.sock) :=
  have ht := (registered_of_start hstart).run hrun
  ⟨ht.clients n c hn hopen, ht.members n c hn hopen⟩

/-- A client subscribes and disconnects, its thread cleans up, and a second one is given the same
descriptor and subscribes as well. -/
def descriptorReused : List Action :=
  [.accept 5, .frame 0 0x02 0 [0, 1, 0x74, 0, 0], .hangup 0, .client 0, .client 0, .accept 5,
    .frame 1 0x02 0 [0, 1, 0x75, 0, 0], .client 0, .client 0]

/-- The second client stays registered, although the thread of the first ends after that. -/
theorem registration_kept_descriptorReused :
    ∃ t, Run (State.step ⟨4, 3, 5000⟩) (keepsRegistration · ·) (State.init ⟨4, 3, 5000⟩)
        descriptorReused t ∧
      t.conns = [⟨5, .closed⟩, ⟨5, .reading⟩] ∧ t.clients.lookup 5 = some 1 ∧
      5 ∈ t.router.members [0x75] (TopicRouter.groupKey [] 5) := by
  obtain ⟨t, ht, hend⟩ := (Option.any_eq_true _ _).mp
    (show (execChecked (State.step ⟨4, 3, 5000⟩) (keepsRegistration · ·) (State.init ⟨4, 3, 5000⟩)
      descriptorReused).any (fun t => t.conns = [⟨5, .closed⟩, ⟨5, .reading⟩]) = true by decide)
  have hconns := of_decide_eq_true hend
  have hrun := run_of_execChecked ht
  obtain ⟨hclients, hmembers⟩ := registration_kept (State.start_nil _) hrun 1 ⟨5, .reading⟩
    (by rw [hconns]; rfl) rfl
  exact ⟨t, hrun, hconns, hclients, hmembers ([0x75], []) (by decide)⟩

/-- A client is given the descriptor of one that has closed its socket, and subscribes; then the
thread of the first goes on. -/
def descriptorReusedEarly : List Action :=
  [.accept 5, .hangup 0, .accept 5, .frame 1 0x02 0 [0, 1, 0x74, 0, 0], .client 0, .client 0]

/-- The second client has its socket open and its thread reads, but it is neither registered nor
subscribed any more. -/
theorem erased_by_predecessor :
    ∃ t, exec (State.step ⟨4, 3, 5000⟩) (State.init ⟨4, 3, 5000⟩) descriptorReusedEarly = some t ∧
      descriptorReusedEarly.all sendsNoErrorResp = true ∧
      t.conns[1]? = some ⟨5, .reading⟩ ∧ t.clients.lookup 5 = none ∧
      ([0x74], []) ∈ subscriptions 1 descriptorReusedEarly ∧
      t.router.members [0x74] (TopicRouter.groupKey [] 5) = [] := by
  obtain ⟨t, ht, hend⟩ := (Option.any_eq_true _ _).mp
    (show (exec (State.step ⟨4, 3, 5000⟩) (State.init ⟨4, 3, 5000⟩) descriptorReusedEarly).any
      (fun t => t.conns[1]? = some ⟨5, .reading⟩ ∧ t.clients.lookup 5 = none ∧
        t.router.members [0x74] (TopicRouter.groupKey [] 5) = []) = true by decide)
  obtain ⟨hconn, hclients, hmembers⟩ := of_decide_eq_true hend
  exact ⟨t, ht, by decide, hconn, hclients, by decide, hmembers⟩

end EventQueue.Broker
