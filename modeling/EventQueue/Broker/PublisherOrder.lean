import EventQueue.Broker.Ledger

/-!
# The order of one publisher's messages

A connection publishes `m₁` and then `m₂`. A client that subscribes without a group to a pattern
that matches `m₁`, and stays subscribed and connected, is sent `m₁` before anything that descends
from `m₂`: its redeliveries and its dead letters included, whatever other publishers, redeliveries,
and dead letters do.

The connection's thread pushes `m₁` before it reads the frame of `m₂`, so `m₁` is in front of every
descendant of `m₂` when the latter enters the queue. Until `m₁` was written to the client, the
descendants of `m₂` are all in the queue behind it: no other part of the broker has seen one, so
none can come back from there. `Flow.Phase` follows `m₁` on its way: not queued yet, in the queue,
in the dispatcher's hand, written.
-/

namespace EventQueue.Broker

open TopicRouter (Target)
open Transition (Run exec run_of_exec execChecked run_of_execChecked)

/-- The message that the dispatcher is sending, and the targets that it has not sent it to. -/
def DispatcherPc.unsent : DispatcherPc → Option (Message × List Target)
  | .tracking m t todo | .sending m t todo => some (m, t :: todo)
  | .idle | .popped _ => none

/-- After a send the dispatcher goes on with the targets that are left. -/
theorem DispatcherPc.unsent_next (m : Message) (todo : List Target) :
    (next m todo).unsent = if todo = [] then none else some (m, todo) := by
  cases todo <;> rfl

namespace Flow

variable {e : Env} {f g : Flow} {m₁ : Message} {o₂ k : ℕ} {τ : Target}

/-! ## The way of a message -/

/-- What the dispatcher has popped and not routed, then the queue. -/
def pipe (f : Flow) : List Message :=
  match f.hand with
  | .popped m => m :: f.queue
  | _ => f.queue

/-- No copy of the given origin has left the queue. -/
structure Unseen (o : ℕ) (f : Flow) : Prop where
  /-- None is being sent. -/
  sending : ∀ m todo, f.hand.unsent = some (m, todo) → m.origin ≠ o
  /-- None is in flight. -/
  inFlight : ∀ key entry, f.inFlight key = some entry → entry.msg.origin ≠ o
  /-- None is a dead letter. -/
  dlq : ∀ m ∈ f.dlq, m.origin ≠ o
  /-- None is in the DLQ logger's hand. -/
  logger : ∀ m, f.logger = some m → m.origin ≠ o
  /-- None was written. -/
  written : ∀ n m, .written n m ∈ f.trace → m.origin ≠ o

/-- The way of `m₁` to the target `τ`, on the connection `k`, ahead of the descendants of `o₂`. -/
inductive Phase (m₁ : Message) (o₂ : ℕ) (τ : Target) (k : ℕ) (f : Flow) : Prop
  /-- It is not queued yet. -/
  | before (hm₁ : .enqueued m₁ ∉ f.trace) (hpipe : ∀ m ∈ f.pipe, m.origin ≠ o₂)
      (hunseen : f.Unseen o₂)
  /-- It is in the queue, or popped. -/
  | queued (front back : List Message) (hpipe : f.pipe = front ++ m₁ :: back)
      (hfront : ∀ m ∈ front, m.origin ≠ o₂) (hunseen : f.Unseen o₂)
  /-- It is being sent. -/
  | sending (todo : List Target) (hhand : f.hand.unsent = some (m₁, todo)) (hτ : τ ∈ todo)
      (hunseen : f.Unseen o₂)
  /-- It was written. -/
  | written (hwritten : ∀ A B m, f.trace = A ++ .written k m :: B → m.origin = o₂ →
      .written k m₁ ∈ A) (hm₁ : .written k m₁ ∈ f.trace)

/-- In every phase, a descendant of `o₂` that was written comes after `m₁`. -/
theorem Phase.ordered (h : f.Phase m₁ o₂ τ k) {A B : List Event} {m : Message}
    (htrace : f.trace = A ++ .written k m :: B) (hm : m.origin = o₂) : .written k m₁ ∈ A := by
  have hmem : .written k m ∈ f.trace := by simp [htrace]
  cases h with
  | before _ _ hunseen | queued _ _ _ _ hunseen | sending _ _ _ hunseen =>
    exact absurd hm (hunseen.written k m hmem)
  | written hwritten => exact hwritten A B m htrace hm

/-! ## Moves -/

/-- A copy that has left the queue comes from one that had, or was routed. -/
theorem Unseen.move (h : f.Unseen o₂) (hmove : Move e f g)
    (hroute : ∀ m, f.hand = .popped m → m.origin ≠ o₂) : g.Unseen o₂ := by
  obtain ⟨hsending, hflight, hdlq, hlogger, hwritten⟩ := h
  have hclear : ∀ key key' entry, Function.update f.inFlight key none key' = some entry →
      entry.msg.origin ≠ o₂ := fun key key' entry hentry =>
    hflight key' entry (eq_some_of_update_none hentry)
  have hwritten : ∀ n m, .written n m ∈ g.trace → m.origin ≠ o₂ := by
    intro n m hm
    rcases hmove.written_cases hm with hm | ⟨t, todo, hhand⟩
    · exact hwritten n m hm
    · exact hsending m (t :: todo) (by rw [hhand]; rfl)
  -- A send leaves the message that it was sending, or none.
  have hnext : ∀ m t todo, f.hand = .sending m t todo → ∀ m' todo',
      (DispatcherPc.next m todo).unsent = some (m', todo') → m'.origin ≠ o₂ := by
    intro m t todo hhand m' todo' hnext
    rw [DispatcherPc.unsent_next] at hnext
    split_ifs at hnext
    obtain ⟨rfl, rfl⟩ := Prod.mk.inj (Option.some.inj hnext)
    exact hsending m (t :: todo) (by rw [hhand]; rfl)
  cases hmove with
  | stay | note | enqueue => exact ⟨hsending, hflight, hdlq, hlogger, hwritten⟩
  | ack key hkey => exact ⟨hsending, hclear key, hdlq, hlogger, hwritten⟩
  | requeue key entry hkey hentry hretry =>
    exact ⟨hsending, hclear key, hdlq, hlogger, hwritten⟩
  | deadLetter key entry hkey hentry hretry =>
    refine ⟨hsending, hclear key, fun m hm => ?_, hlogger, hwritten⟩
    rcases List.mem_append.mp hm with hm | hm
    · exact hdlq m hm
    · obtain rfl : m = entry.dlqMsg := List.mem_singleton.mp hm
      exact hflight key entry hentry
  | pop m rest hhand hqueue => exact ⟨nofun, hflight, hdlq, hlogger, hwritten⟩
  | drop m hrouting hhand hnone => exact ⟨nofun, hflight, hdlq, hlogger, hwritten⟩
  | route m t todo hrouting hhand hperm =>
    refine ⟨fun m' todo' hsent => ?_, hflight, hdlq, hlogger, hwritten⟩
    obtain ⟨rfl, rfl⟩ := Prod.mk.inj (Option.some.inj hsent)
    exact hroute m hhand
  | track m t todo deadline hhand =>
    have hm : m.origin ≠ o₂ := hsending m (t :: todo) (by rw [hhand]; rfl)
    refine ⟨fun m' todo' hsent => ?_, fun key entry hentry => ?_, hdlq, hlogger, hwritten⟩
    · obtain ⟨rfl, rfl⟩ := Prod.mk.inj (Option.some.inj hsent)
      exact hm
    · rcases eq_or_eq_some_of_update hentry with ⟨-, rfl⟩ | hentry
      · exact hm
      · exact hflight key entry hentry
  | sendWritten m t todo n hhand hn =>
    exact ⟨hnext m t todo hhand, hflight, hdlq, hlogger, hwritten⟩
  | sendGone m t todo hhand hn =>
    exact ⟨hnext m t todo hhand, hflight, hdlq, hlogger, hwritten⟩
  | logPop m rest hlogger' hdlq' =>
    have hall : ∀ m' ∈ m :: rest, m'.origin ≠ o₂ := hdlq' ▸ hdlq
    refine ⟨hsending, hflight, fun m' hm' => hall m' (List.mem_cons_of_mem _ hm'), ?_, hwritten⟩
    intro m' hm'
    exact Option.some.inj hm' ▸ hall m List.mem_cons_self
  | republish m hlogger' => exact ⟨hsending, hflight, hdlq, nofun, hwritten⟩

/-- What a move does to the pipe: it adds to its end, or it routes or drops the message in
front. -/
theorem Move.pipe_cases (hmove : Move e f g) :
    (∃ new, g.pipe = f.pipe ++ new ∧
      ∀ m ∈ new, (e.offers m ∧ .enqueued m ∈ g.trace) ∨
        (∃ key entry, f.inFlight key = some entry ∧ m.origin = entry.msg.origin) ∨
        f.logger = some m) ∨
    ∃ m, f.hand = .popped m ∧ f.pipe = m :: g.pipe ∧
      (e.targets m.topic = [] ∨
        ∃ todo, todo.Perm (e.targets m.topic) ∧ g.hand.unsent = some (m, todo)) := by
  -- The pipe ends with the queue, whatever is in hand.
  have happend : ∀ queue hand new, pipe { f with queue := queue, hand := hand } ++ new =
      pipe { f with queue := queue ++ new, hand := hand } := by
    intro queue hand new
    cases hand <;> rfl
  cases hmove with
  | enqueue m hm =>
    refine .inl ⟨[m], (happend f.queue f.hand [m]).symm, ?_⟩
    simpa using .inl hm
  | requeue key entry hkey hentry hretry =>
    refine .inl ⟨[entry.requeueMsg], (happend f.queue f.hand _).symm, ?_⟩
    simpa using .inr (.inl ⟨key.1, key.2, entry, hentry, rfl⟩)
  | republish m hlogger =>
    refine .inl ⟨[m], (happend f.queue f.hand [m]).symm, ?_⟩
    simpa using .inr (.inr hlogger)
  | pop m rest hhand hqueue => exact .inl ⟨[], by simp [pipe, hhand, hqueue], by simp⟩
  | drop m hrouting hhand hnone => exact .inr ⟨m, hhand, by simp [pipe, hhand], .inl hnone⟩
  | route m t todo hrouting hhand hperm =>
    exact .inr ⟨m, hhand, by simp [pipe, hhand], .inr ⟨t :: todo, hperm, rfl⟩⟩
  | track m t todo deadline hhand => exact .inl ⟨[], by simp [pipe, hhand], by simp⟩
  | sendWritten m t todo n hhand | sendGone m t todo hhand =>
    exact .inl ⟨[], by cases todo <;> simp [pipe, hhand, DispatcherPc.next], by simp⟩
  | stay | note | ack | deadLetter | logPop => exact .inl ⟨[], by simp [pipe], by simp⟩

/-- The move that enqueues a message puts it at the end of the pipe. -/
theorem Move.pipe_of_enqueued (hmove : Move e f g) (hold : .enqueued m₁ ∉ f.trace)
    (hnew : .enqueued m₁ ∈ g.trace) : g.pipe = f.pipe ++ [m₁] := by
  cases hmove with
  | enqueue m hm =>
    obtain rfl : m₁ = m := by simpa [hold] using hnew
    unfold pipe
    dsimp only
    cases f.hand <;> rfl
  | note x hx => exact absurd (mem_of_note hx rfl hnew) hold
  | _ => simp_all

/-- What the phases need of the environment of a move. -/
structure Leads (m₁ : Message) (o₂ : ℕ) (τ : Target) (k : ℕ) (e : Env) (f : Flow) : Prop where
  /-- A message of origin `o₂` is new only after `m₁` was. -/
  offers : ∀ m, e.offers m → m.origin = o₂ → .enqueued m₁ ∈ f.trace
  /-- `τ` is a target of `m₁`. -/
  target : τ ∈ e.targets m₁.topic
  /-- `τ` is connected. -/
  conn : e.conn τ.client_id = some k

/-- In a history that grows, what was written in order stays so. -/
theorem written_mono {trace new : List Event} (hm₁ : .written k m₁ ∈ trace)
    (hwritten : ∀ A B m, trace = A ++ .written k m :: B → m.origin = o₂ → .written k m₁ ∈ A) :
    ∀ A B m, trace ++ new = A ++ .written k m :: B → m.origin = o₂ → .written k m₁ ∈ A := by
  intro A B m hsplit hm
  rcases List.append_eq_append_iff.mp hsplit with ⟨A', rfl, -⟩ | ⟨B', htrace, hnew⟩
  · exact List.mem_append_left _ hm₁
  · cases B' with
    | nil =>
      rw [List.append_nil] at htrace
      exact htrace ▸ hm₁
    | cons x B' =>
      obtain ⟨rfl, -⟩ := List.cons.inj hnew
      exact hwritten A B' m htrace hm

/-- A message that is being sent is still on its way after a move, or was written. -/
theorem phase_of_sending (hne : m₁.origin ≠ o₂) (he : Leads m₁ o₂ τ k e f) {todo : List Target}
    (hhand : f.hand.unsent = some (m₁, todo)) (hτ : τ ∈ todo) (hunseen : f.Unseen o₂)
    (hmove : Move e f g) : g.Phase m₁ o₂ τ k := by
  have hunseen' : g.Unseen o₂ := by
    refine hunseen.move hmove fun m hm => ?_
    simp [hm, DispatcherPc.unsent] at hhand
  -- One target less, and `τ` was not it.
  have hnext : ∀ {t : Target} {rest : List Target}, τ ∈ t :: rest → t ≠ τ →
      (DispatcherPc.next m₁ rest).unsent = some (m₁, rest) ∧ τ ∈ rest := by
    intro t rest hmem hne
    have hrest : τ ∈ rest := (List.mem_cons.mp hmem).resolve_left fun h => hne h.symm
    rw [DispatcherPc.unsent_next, if_neg (List.ne_nil_of_mem hrest)]
    exact ⟨rfl, hrest⟩
  cases hmove with
  | sendWritten m t rest n hsend hn =>
    obtain ⟨rfl, rfl⟩ : m = m₁ ∧ t :: rest = todo := by
      simpa [hsend, DispatcherPc.unsent] using hhand
    by_cases ht : t = τ
    · subst ht
      obtain rfl : k = n := Option.some.inj (he.conn.symm.trans hn)
      refine .written (fun A B m' hsplit hm' => ?_) (by simp)
      have hsplit : f.trace ++ [.written k m] = A ++ .written k m' :: B := hsplit
      have hmem : .written k m' ∈ f.trace ++ [.written k m] := by rw [hsplit]; simp
      rcases List.mem_append.mp hmem with hmem | hmem
      · exact absurd hm' (hunseen.written k m' hmem)
      · obtain rfl : m' = m := by simpa using hmem
        exact absurd hm' hne
    · obtain ⟨hunsent, hrest⟩ := hnext hτ ht
      exact .sending rest hunsent hrest hunseen'
  | sendGone m t rest hsend hn =>
    obtain ⟨rfl, rfl⟩ : m = m₁ ∧ t :: rest = todo := by
      simpa [hsend, DispatcherPc.unsent] using hhand
    by_cases ht : t = τ
    · rw [ht, he.conn] at hn
      cases hn
    · obtain ⟨hunsent, hrest⟩ := hnext hτ ht
      exact .sending rest hunsent hrest hunseen'
  | track m t rest deadline htrack =>
    exact .sending todo (by simpa [htrack, DispatcherPc.unsent] using hhand) hτ hunseen'
  | pop m rest hidle => simp [hidle, DispatcherPc.unsent] at hhand
  | drop m hrouting hpopped => simp [hpopped, DispatcherPc.unsent] at hhand
  | route m t rest hrouting hpopped => simp [hpopped, DispatcherPc.unsent] at hhand
  | _ => exact .sending todo hhand hτ hunseen'

/-- A move takes the message to its next phase, or leaves it where it is. -/
theorem Phase.move (h : f.Phase m₁ o₂ τ k) (hne : m₁.origin ≠ o₂) (he : Leads m₁ o₂ τ k e f)
    (hmove : Move e f g) : g.Phase m₁ o₂ τ k := by
  cases h with
  | before hm₁ hpipe hunseen =>
    have hpopped : ∀ m, f.hand = .popped m → m.origin ≠ o₂ := fun m hm =>
      hpipe m (by simp [pipe, hm])
    have hunseen' := hunseen.move hmove hpopped
    by_cases hnew : .enqueued m₁ ∈ g.trace
    · exact .queued f.pipe [] (hmove.pipe_of_enqueued hm₁ hnew) hpipe hunseen'
    · refine .before hnew ?_ hunseen'
      rcases hmove.pipe_cases with ⟨new, hpipe', horigin⟩ | ⟨m, -, hpipe', -⟩
      · rw [hpipe']
        intro m hm
        rcases List.mem_append.mp hm with hm | hm
        · exact hpipe m hm
        · rcases horigin m hm with ⟨hoffers, -⟩ | ⟨key, entry, hentry, ho⟩ | hlogger
          · exact fun ho => hm₁ (he.offers m hoffers ho)
          · exact ho ▸ hunseen.inFlight key entry hentry
          · exact hunseen.logger m hlogger
      · exact fun m' hm' => hpipe m' (by simp [hpipe', hm'])
  | queued front back hpipe hfront hunseen =>
    have hpopped : ∀ m, f.hand = .popped m → m.origin ≠ o₂ := by
      intro m hm
      have hhead : m :: f.queue = front ++ m₁ :: back := by rw [← hpipe]; simp [pipe, hm]
      cases front with
      | nil => exact (List.cons.inj hhead).1 ▸ hne
      | cons x front => exact hfront m (by simp [(List.cons.inj hhead).1])
    have hunseen' := hunseen.move hmove hpopped
    rcases hmove.pipe_cases with ⟨new, hpipe', -⟩ | ⟨m, -, hpipe', hrouted⟩
    · exact .queued front (back ++ new) (by simp [hpipe', hpipe]) hfront hunseen'
    · cases front with
      | nil =>
        obtain ⟨rfl, -⟩ := List.cons.inj (hpipe.symm.trans hpipe')
        rcases hrouted with hnone | ⟨todo, hperm, hunsent⟩
        · exact absurd he.target (by simp [hnone])
        · exact .sending todo hunsent (hperm.mem_iff.mpr he.target) hunseen'
      | cons x front =>
        obtain ⟨-, hrest⟩ := List.cons.inj (hpipe.symm.trans hpipe')
        exact .queued front back hrest.symm (fun m hm => hfront m (List.mem_cons_of_mem _ hm))
          hunseen'
  | sending todo hhand hτ hunseen => exact phase_of_sending hne he hhand hτ hunseen hmove
  | written hwritten hm₁ =>
    obtain ⟨new, hnew⟩ := hmove.trace_extends
    exact .written (hnew ▸ written_mono hm₁ hwritten) (hmove.trace_extends.subset hm₁)

end Flow

/-! ## Where messages come from -/

variable {cfg : Config} {s s₁ t : State} {a : Action} {as : List Action} {file : Bytes}
  {order : List Message}

/-- The origin that an event gives to a new message. -/
def Event.birth : Event → Option ℕ
  | .published _ m | .audited m => some m.origin
  | _ => none

/-- A step gives out one origin at most, the next. -/
theorem step_births (h : s.step cfg a = some t) :
    t.trace.filterMap Event.birth = s.trace.filterMap Event.birth ∧ t.origins = s.origins ∨
      t.trace.filterMap Event.birth = s.trace.filterMap Event.birth ++ [s.origins] ∧
        t.origins = s.origins + 1 := by
  have hfail : ∀ {u v : State} {key : DeliveryKey}, Fails cfg u key v →
      v.trace.filterMap Event.birth = u.trace.filterMap Event.birth ∧ v.origins = u.origins := by
    intro u v key hfail
    cases hfail <;> simp [Event.birth]
  cases step_sound h with
  | publish n c type msg_id payload m hn hpc hlen htype hm => simp [Event.birth, hm]
  | audit m sys hpc hsys => simp [Event.birth, hsys]
  | nackPush n c msg_id u hn hpc hfails =>
    have hsame := hfail hfails
    exact .inl hsame
  | disconnectPush n c closing key t hn hpc hkey hfails => exact .inl (hfail hfails)
  | scanPush now deadline key rest entry t hpc hhead hnow hentry hdue hfails =>
    have hsame := hfail hfails
    exact .inl hsame
  | _ => first | exact .inl ⟨rfl, rfl⟩ | exact .inl ⟨Flow.filterMap_append_unseen rfl, rfl⟩

/-- Where the messages of a state come from. -/
structure Provenance (s : State) : Prop where
  /-- Every copy has an origin that was given out. -/
  copies : s.flow.Forall fun m => m.origin < s.origins
  /-- So has every message that was written. -/
  written : ∀ n m, .written n m ∈ s.trace → m.origin < s.origins
  /-- So has every message that was queued. -/
  enqueued : ∀ m, .enqueued m ∈ s.trace → m.origin < s.origins
  /-- So has every message that is not queued yet. -/
  staged : ∀ m, s.Staged m → m.origin < s.origins
  /-- Origins are given out in order. -/
  births : (s.trace.filterMap Event.birth).Pairwise (· < ·)
  /-- No more were given out. -/
  bound : ∀ o ∈ s.trace.filterMap Event.birth, o < s.origins
  /-- A connection publishes what it was sent. -/
  publishing : ∀ (k : ℕ) (c : Conn) (m : Message), s.conns[k]? = some c → c.pc.message = some m →
    .published k m ∈ s.trace
  /-- The DLQ logger publishes its audit events. -/
  auditing : ∀ m, s.logger.message = some m → .audited m ∈ s.trace
  /-- What a connection was sent is queued, or is in the hands of its thread. -/
  queued : ∀ n m, .published n m ∈ s.trace →
    .enqueued m ∈ s.trace ∨ ∃ c, s.conns[n]? = some c ∧ c.pc.message = some m

/-- After a start nothing was published, and the origins of the replayed messages are given out. -/
theorem provenance_start (h : State.start cfg file order = some s) : Provenance s := by
  have hflow := flow_of_start h
  have hstaged := not_staged_of_start h
  have htrace : s.trace = (State.replayed order).map .enqueued := congrArg Flow.trace hflow
  have hreplayed : ∀ m ∈ State.replayed order, m.origin < order.length := by
    intro m hm
    obtain ⟨⟨m', i⟩, hmem, rfl⟩ := List.mem_map.mp hm
    have := List.snd_lt_of_mem_zipIdx hmem
    simpa using this
  have hbirths : s.trace.filterMap Event.birth = [] := by
    rw [htrace]
    exact Flow.filterMap_enqueued (fun _ => rfl) _
  have horigins : s.origins = order.length := by
    unfold State.start at h
    split_ifs at h
    obtain rfl := Option.some.inj h
    rfl
  constructor
  · rw [hflow, horigins]
    exact ⟨hreplayed, by simp, by simp, by simp, by simp⟩
  · simp [htrace]
  · simpa [htrace, horigins] using hreplayed
  · exact fun m hm => absurd hm (hstaged m)
  · simp [hbirths]
  · simp [hbirths]
  · exact fun k c m hk hm => absurd (.inl ⟨c, List.mem_of_getElem? hk, hm⟩) (hstaged m)
  · exact fun m hm => absurd (.inr hm) (hstaged m)
  · simp [htrace]

/-- A message that a step has queued had its origin before. -/
theorem Provenance.enqueued_lt (hs : Provenance s) (h : s.step cfg a = some t) {m : Message}
    (hm : .enqueued m ∈ t.trace) : m.origin < s.origins := by
  rcases (step_move h).enqueued_cases hm with hm | hm
  · exact hs.enqueued m hm
  · exact hs.staged m (staged_of_offered hm)

/-- A step keeps track of where messages come from. -/
theorem Provenance.step (hs : Provenance s) (hfiled : s.flow.Filed) (h : s.step cfg a = some t) :
    Provenance t := by
  have hmove := step_move h
  have hsub := hmove.trace_extends.subset
  have hle : s.origins ≤ t.origins := by
    rcases step_births h with ⟨-, heq⟩ | ⟨-, heq⟩ <;> omega
  constructor
  · refine (hs.copies.imp fun m hm => hm.trans_le hle).move hfiled hmove (fun m hm _ => ?_)
      (fun m hm _ => hm) fun m hm _ => hm
    exact (hs.staged m (staged_of_offered hm)).trans_le hle
  · intro n m hm
    rcases hmove.written_cases hm with hm | ⟨τ, todo, hhand⟩
    · exact (hs.written n m hm).trans_le hle
    · exact (hs.copies.hand m (by simp [hhand])).trans_le hle
  · intro m hm
    exact (hs.enqueued_lt h hm).trans_le hle
  · intro m hm
    rcases step_staged h hm with hm | ⟨-, horigin, horigins⟩
    · exact (hs.staged m hm).trans_le hle
    · omega
  · rcases step_births h with ⟨heq, -⟩ | ⟨heq, -⟩
    · exact heq ▸ hs.births
    · rw [heq, List.pairwise_append]
      refine ⟨hs.births, List.pairwise_singleton _ _, fun o ho o' ho' => ?_⟩
      rw [List.mem_singleton.mp ho']
      exact hs.bound o ho
  · intro o ho
    rcases step_births h with ⟨heq, -⟩ | ⟨heq, horigins⟩
    · exact (hs.bound o (heq ▸ ho)).trans_le hle
    · rcases List.mem_append.mp (heq ▸ ho) with ho | ho
      · exact (hs.bound o ho).trans_le hle
      · rw [List.mem_singleton.mp ho]
        omega
  · intro k c m hk hm
    -- Whoever publishes has recorded it, in this step or before.
    cases step_came h hk with
    | same hk => exact hsub (hs.publishing k c m hk hm)
    | elsewhere hmessage => simp [hmessage] at hm
    | publish m' hpc hm' hfits horigins htrace =>
      obtain rfl : m' = m := by simpa [hpc, ClientPc.message] using hm
      simp [htrace]
    | append m' c₀ ha hk hpc₀ hpc =>
      obtain rfl : m' = m := by simpa [hpc, ClientPc.message] using hm
      exact hsub (hs.publishing k c₀ m' hk (by rw [hpc₀]; rfl))
    | ack msg_id type payload ha htype c₀ hk hsock hpc => simp [hpc, ClientPc.message] at hm
    | ackEngine msg_id c₀ ha hk hpc₀ hsock hpc => simp [hpc, ClientPc.message] at hm
  · intro m hm
    rcases step_logger h hm with hm | ⟨-, -, -, htrace⟩
    · exact hsub (hs.auditing m hm)
    · simp [htrace]
  · intro n m hm
    rcases step_published h hm with hm | ⟨-, c, hc, hpc⟩
    · rcases hs.queued n m hm with hm | ⟨c, hc, hm⟩
      · exact .inl (hsub hm)
      · exact step_message h hc hm
    · exact .inr ⟨c, hc, by rw [hpc]; rfl⟩

/-- An origin is given out by one event. -/
theorem Provenance.eq_of_birth (hs : Provenance s) {x y : Event} (hx : x ∈ s.trace)
    (hy : y ∈ s.trace) {o : ℕ} (hxo : x.birth = some o) (hyo : y.birth = some o) : x = y := by
  obtain ⟨i, hi, rfl⟩ := List.getElem_of_mem hx
  obtain ⟨j, hj, rfl⟩ := List.getElem_of_mem hy
  have hpair := List.pairwise_iff_getElem.mp (List.pairwise_filterMap.mp hs.births)
  rcases lt_trichotomy i j with hij | rfl | hij
  · exact absurd (hpair i j hi hj hij o hxo o hyo) (lt_irrefl o)
  · rfl
  · exact absurd (hpair j i hj hi hij o hyo o hxo) (lt_irrefl o)

/-! ## Runs of the broker -/

/-- The client is subscribed to the pattern without a group, and its connection is the `k`-th. -/
def stays (c : ClientId) (pattern : Bytes) (k : ℕ) (s : State) (_ : Action) : Bool :=
  c ∈ s.router.members pattern (TopicRouter.groupKey [] c) ∧ s.clients.lookup c = some k

/-- The target that a client subscribed without a group is. -/
def alone (c : ClientId) (pattern : Bytes) : Target := ⟨pattern, TopicRouter.groupKey [] c, c⟩

/-- The invariant of a run that starts in `s₁`, with the client subscribed throughout. -/
structure Ordered (s₁ : State) (c : ClientId) (pattern : Bytes) (k : ℕ) (s : State) : Prop where
  /-- Where messages come from. -/
  provenance : Provenance s
  /-- Deliveries are filed under their message and client. -/
  filed : s.flow.Filed
  /-- Origins are given out upwards. -/
  origins : s₁.origins ≤ s.origins
  /-- What has an older origin was published before. -/
  since : ∀ n m, .published n m ∈ s.trace → m.origin < s₁.origins → .published n m ∈ s₁.trace
  /-- What was published since is ahead of what its publisher published later, or may still
  publish. -/
  phase : ∀ (n : ℕ) (m₁ : Message) (o₂ : ℕ), .published n m₁ ∈ s.trace → s₁.origins ≤ m₁.origin →
    m₁.origin < o₂ → TopicRouter.topicMatches pattern m₁.topic = true →
    (s.origins ≤ o₂ ∨ ∃ m₂, .published n m₂ ∈ s.trace ∧ m₂.origin = o₂) →
    s.flow.Phase m₁ o₂ (alone c pattern) k

variable {c : ClientId} {pattern : Bytes} {k : ℕ}

/-- A connection that pushes a message has pushed those that it published before. -/
theorem Provenance.enqueued_of_offered (hs : Provenance s) {n : ℕ} {m m₁ m₂ : Message}
    (hm : s.offered a = some m) (hm₁ : .published n m₁ ∈ s.trace) (hm₂ : .published n m₂ ∈ s.trace)
    (heq : m.origin = m₂.origin) (hne : m₁.origin ≠ m₂.origin) : .enqueued m₁ ∈ s.trace := by
  rcases staged_of_offered hm with ⟨conn, hconn, hmessage⟩ | hlogger
  · obtain ⟨i, hi⟩ := List.mem_iff_getElem?.mp hconn
    have hsame := hs.eq_of_birth (hs.publishing i conn m hi hmessage) hm₂ (o := m₂.origin)
      (by simp [Event.birth, heq]) rfl
    obtain ⟨rfl, rfl⟩ : i = n ∧ m = m₂ := by simpa using hsame
    rcases hs.queued i m₁ hm₁ with hm₁ | ⟨conn', hconn', hmessage'⟩
    · exact hm₁
    · obtain rfl := Option.some.inj (hi.symm.trans hconn')
      obtain rfl := Option.some.inj (hmessage.symm.trans hmessage')
      exact absurd rfl hne
  · have hsame := hs.eq_of_birth (hs.auditing m hlogger) hm₂ (o := m₂.origin)
      (by simp [Event.birth, heq]) rfl
    cases hsame

/-- A message that is not queued yet is ahead of those whose origin was not given out. -/
theorem Provenance.phase (hs : Provenance s) {m₁ : Message} {o₂ : ℕ} {τ : Target}
    (hm₁ : .enqueued m₁ ∉ s.trace) (ho₂ : s.origins ≤ o₂) : s.flow.Phase m₁ o₂ τ k := by
  have hne : ∀ m : Message, m.origin < s.origins → m.origin ≠ o₂ := fun m hm => by omega
  refine .before hm₁ (fun m hm => ?_) ⟨fun m todo hm => ?_, ?_, ?_, ?_, ?_⟩
  · unfold Flow.pipe at hm
    split at hm
    · rename_i m' hhand
      rcases List.mem_cons.mp hm with rfl | hm
      · exact hne m (hs.copies.hand m (by simp [hhand]))
      · exact hne m (hs.copies.queue m hm)
    · exact hne m (hs.copies.queue m hm)
  · refine hne m (hs.copies.hand m ?_)
    cases hhand : s.flow.hand <;> simp_all [DispatcherPc.unsent]
  · exact fun key entry hentry => hne entry.msg (hs.copies.inFlight key entry hentry)
  · exact fun m hm => hne m (hs.copies.dlq m hm)
  · exact fun m hm => hne m (hs.copies.logger m hm)
  · exact fun n m hm => hne m (hs.written n m hm)

/-- A step with the client subscribed keeps the invariant. -/
theorem Ordered.step (hs : Ordered s₁ c pattern k s) (hok : stays c pattern k s a = true)
    (h : s.step cfg a = some t) : Ordered s₁ c pattern k t := by
  have hprov := hs.provenance.step hs.filed h
  have hle : s.origins ≤ t.origins := by
    rcases step_births h with ⟨-, heq⟩ | ⟨-, heq⟩ <;> omega
  refine ⟨hprov, hs.filed.move (step_move h), hs.origins.trans hle, fun n m hm hlt => ?_, ?_⟩
  · rcases step_published h hm with hm | ⟨horigin, -⟩
    · exact hs.since n m hm hlt
    · have := hs.origins
      omega
  · intro n m₁ o₂ hm₁ hsince hlt hmatch hlater
    rcases step_published h hm₁ with hm₁ | ⟨horigin, -⟩
    · -- it was published before: its publisher may publish `o₂` next, or has done so
      have hlater' : s.origins ≤ o₂ ∨ ∃ m₂, .published n m₂ ∈ s.trace ∧ m₂.origin = o₂ := by
        rcases hlater with hle' | ⟨m₂, hm₂, rfl⟩
        · exact .inl (hle.trans hle')
        · rcases step_published h hm₂ with hm₂ | ⟨horigin, -⟩
          · exact .inr ⟨m₂, hm₂, rfl⟩
          · exact .inl horigin.ge
      refine (hs.phase n m₁ o₂ hm₁ hsince hlt hmatch hlater').move hlt.ne ⟨?_, ?_, ?_⟩ (step_move h)
      · intro m hm ho
        have hborn := hs.provenance.staged m (staged_of_offered hm)
        rcases hlater' with hle' | ⟨m₂, hm₂, rfl⟩
        · omega
        · exact hs.provenance.enqueued_of_offered hm hm₁ hm₂ ho hlt.ne
      · have hmem := (of_decide_eq_true hok).1
        exact TopicRouter.mem_targets_of_unique hmatch (TopicRouter.isUnique_groupKey_nil c) hmem
      · exact (of_decide_eq_true hok).2
    · -- it is new
      refine hprov.phase (fun hm => ?_) ?_
      · have := hs.provenance.enqueued_lt h hm
        omega
      · rcases hlater with hle' | ⟨m₂, hm₂, rfl⟩
        · exact hle'
        · rcases step_published h hm₂ with hm₂ | ⟨horigin', -⟩
          · have := hs.provenance.bound m₂.origin (List.mem_filterMap.mpr ⟨_, hm₂, rfl⟩)
            omega
          · omega

/-- A connection publishes `m₁` and then `m₂`; a client that was subscribed without a group before,
to a pattern that matches `m₁`, and stays so, on a connection that stays registered, is sent `m₁`
before any descendant of `m₂`. -/
theorem publisher_order (hstart : State.start cfg file order = some s)
    {as₁ : List Action} (hrun₁ : exec (State.step cfg) s as₁ = some s₁)
    (hrun : Run (State.step cfg) (stays c pattern k · ·) s₁ as t) {n : ℕ} {m₁ m₂ : Message}
    (hpub : [.published n m₁, .published n m₂].Sublist t.trace)
    (hsince : .published n m₁ ∉ s₁.trace)
    (hmatch : TopicRouter.topicMatches pattern m₁.topic = true) {A B : List Event} {m : Message}
    (hwritten : t.trace = A ++ .written k m :: B) (hm : m.origin = m₂.origin) :
    .written k m₁ ∈ A := by
  have hprov₁ : Provenance s₁ ∧ s₁.flow.Filed :=
    (run_of_exec hrun₁).invariant (I := fun s => Provenance s ∧ s.flow.Filed)
      (fun s a t hs _ h => ⟨hs.1.step hs.2 h, hs.2.move (step_move h)⟩)
      ⟨provenance_start hstart, by rw [flow_of_start hstart]; simp [Flow.Filed]⟩
  have hinit : Ordered s₁ c pattern k s₁ := by
    refine ⟨hprov₁.1, hprov₁.2, le_rfl, fun n m hm _ => hm, fun n m o₂ hm hge => ?_⟩
    have := hprov₁.1.bound m.origin (List.mem_filterMap.mpr ⟨_, hm, rfl⟩)
    omega
  have hord : Ordered s₁ c pattern k t :=
    hrun.invariant (fun s a t hs hok h => hs.step hok h) hinit
  have hm₁ : .published n m₁ ∈ t.trace := hpub.subset (by simp)
  have hm₂ : .published n m₂ ∈ t.trace := hpub.subset (by simp)
  have hlt : m₁.origin < m₂.origin := by
    have := hord.provenance.births.sublist (hpub.filterMap Event.birth)
    simpa [Event.birth] using this
  have hge : s₁.origins ≤ m₁.origin := by
    by_contra hlt
    exact hsince (hord.since n m₁ hm₁ (not_le.mp hlt))
  exact (hord.phase n m₁ m₂.origin hm₁ hge hlt hmatch (.inr ⟨m₂, hm₂, rfl⟩)).ordered hwritten hm

/-- A client subscribes. -/
def oneSubscribes : List Action := [.accept 5, .accept 6, .frame 0 0x02 0 [0, 1, 0x74, 0, 0]]

/-- Another publishes two messages, which are delivered. -/
def twoPublished : List Action :=
  [.frame 1 0x01 0 [0, 1, 0x74], .client 1, .client 1,
    .frame 1 0x01 0 [0, 1, 0x74, 0x62], .client 1,
    .client 1, .pop, .route [alone 5 [0x74]], .track 0, .send, .pop, .route [alone 5 [0x74]],
    .track 0, .send]

/-- The second message is the last that was written, and the first was written before it. -/
theorem publisher_order_two_messages :
    ∃ s₁ t, exec (State.step ⟨4, 3, 5000⟩) (State.init ⟨4, 3, 5000⟩) oneSubscribes = some s₁ ∧
      Run (State.step ⟨4, 3, 5000⟩) (stays 5 [0x74] 0 · ·) s₁ twoPublished t ∧
      t.trace.dropLast ++ [.written 0 ⟨2, [0x74], [0x62], 0, 1⟩] = t.trace ∧
      .written 0 ⟨1, [0x74], [], 0, 0⟩ ∈ t.trace.dropLast := by
  obtain ⟨s₁, hs₁, ht⟩ := (Option.any_eq_true _ _).mp
    (show (exec (State.step ⟨4, 3, 5000⟩) (State.init ⟨4, 3, 5000⟩) oneSubscribes).any (fun s₁ =>
      .published 1 ⟨1, [0x74], [], 0, 0⟩ ∉ s₁.trace ∧
      (execChecked (State.step ⟨4, 3, 5000⟩) (stays 5 [0x74] 0 · ·) s₁ twoPublished).any fun t =>
        [.published 1 ⟨1, [0x74], [], 0, 0⟩, .published 1 ⟨2, [0x74], [0x62], 0, 1⟩].Sublist
          t.trace ∧
        t.trace.dropLast ++ [.written 0 ⟨2, [0x74], [0x62], 0, 1⟩] = t.trace) = true by decide)
  obtain ⟨hsince, ht⟩ := of_decide_eq_true ht
  obtain ⟨t, ht, hend⟩ := (Option.any_eq_true _ _).mp ht
  obtain ⟨hpub, hlast⟩ := of_decide_eq_true hend
  exact ⟨s₁, t, hs₁, run_of_execChecked ht, hlast, publisher_order (State.start_nil _) hs₁
    (run_of_execChecked ht) hpub hsince (by decide) hlast.symm rfl⟩

end EventQueue.Broker
