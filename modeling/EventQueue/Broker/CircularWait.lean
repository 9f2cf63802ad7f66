import EventQueue.Broker.Flow

/-!
# Circular waits

`nack`, `client_disconnected`, and the scanner push on the bounded queues while they hold
`AckEngine::mu_`, and the dispatcher, the only consumer of `main_queue`, needs `mu_` to track a
target. `CircularWait` is the cycle: the dispatcher waits for `mu_`, and its holder for room in
`main_queue`, or for room in `dlq`, which only the DLQ logger makes and which itself waits for room
in `main_queue`.

A holder of `mu_` has a `Job`, and the job fixes which deliveries it is still going to fail. When
the two queues have room for all of these while the dispatcher has a target to track (`Reserved`),
no push of the holder waits. `keepsRoom` is what a step has to respect for that: whoever takes
`mu_`, routes a message, or pushes on `main_queue` from outside leaves the holder its room. With
less room in `main_queue` than that the holder gets to a push that waits, and the cycle closes
(`fullQueue`).
-/

namespace EventQueue.Broker

open Transition
open TopicRouter (Target)

variable {cfg : Config} {s t : State} {a : Action} {as : List Action}

/-! ## The holder of the mutex -/

/-- What the holder of `mu_` is doing. -/
inductive Job
  /-- `nack` of a delivery. -/
  | nack (key : DeliveryKey)
  /-- `client_disconnected` for a client. -/
  | disconnect (id : ClientId)
  /-- A round of the scanner. -/
  | scan (now : TimePoint)
deriving DecidableEq, Repr

/-- The job fails the delivery, if it is in the engine when the job gets there. -/
def Job.dooms (deadlines : List DeadlineEntry) (key : DeliveryKey) (entry : InFlight) : Job → Bool
  | .nack key' => key = key'
  | .disconnect id => entry.subscriber_id = id
  | .scan now => deadlines.any fun d => d.2 = key && d.1 ≤ now && entry.deadline ≤ d.1

/-- Fewer deadlines doom fewer deliveries. -/
theorem Job.dooms_mono {j : Job} {deadlines rest : List DeadlineEntry} {key : DeliveryKey}
    {entry : InFlight} (hrest : rest ⊆ deadlines) (h : j.dooms rest key entry = true) :
    j.dooms deadlines key entry = true := by
  cases j with
  | nack key' => exact h
  | disconnect id => exact h
  | scan now =>
    obtain ⟨d, hd, h⟩ := List.any_eq_true.mp h
    exact List.any_eq_true.mpr ⟨d, hrest hd, h⟩

/-- The job that a thread of a connection does while it holds `mu_`. -/
def ClientPc.job (sock : ClientId) : ClientPc → Option Job
  | .nackPush msg_id => some (.nack (msg_id, sock))
  | .disconnectLoop _ => some (.disconnect sock)
  | _ => none

/-- The job that the scanner does while it holds `mu_`. -/
def ScannerPc.job : ScannerPc → Option Job
  | .scanning now => some (.scan now)
  | _ => none

/-- The action by which a holder of `mu_` goes on. -/
def Holder.action : Holder → Action
  | .conn n => .client n
  | .scanner => .scan

namespace AckEngine

/-- The number of deliveries of a kind that a job is going to fail. -/
def toFail (kind : InFlight → Bool) (e : AckEngine) (j : Job) : ℕ :=
  e.in_flight.entries.countP fun x => j.dooms e.deadlines x.1 x.2 && kind x.2

/-- The number of pushes on `main_queue` that a job is going to make. -/
def requeues (max_retries : ℤ) : AckEngine → Job → ℕ :=
  toFail fun entry => entry.retry_count < max_retries

/-- The number of pushes on `dlq` that a job is going to make. -/
def letters (max_retries : ℤ) : AckEngine → Job → ℕ :=
  toFail fun entry => max_retries ≤ entry.retry_count

variable {e : AckEngine} {j : Job} {kind : InFlight → Bool} {key : DeliveryKey} {entry : InFlight}
  {rest : List DeadlineEntry}

/-- Dropping deadlines adds nothing to what a job is going to fail. -/
theorem toFail_deadlines_le (hrest : rest ⊆ e.deadlines) :
    toFail kind { e with deadlines := rest } j ≤ toFail kind e j := by
  refine List.countP_mono_left fun x _ hx => ?_
  obtain ⟨hdoom, hkind⟩ := Bool.and_eq_true_iff.mp hx
  exact Bool.and_eq_true_iff.mpr ⟨Job.dooms_mono hrest hdoom, hkind⟩

/-- Without a delivery, and with fewer deadlines, a job has as much less to fail. -/
theorem toFail_erase_le (h : e.in_flight.lookup key = some entry) (hrest : rest ⊆ e.deadlines) :
    toFail kind ⟨e.in_flight.erase key, rest⟩ j +
      (if j.dooms e.deadlines key entry && kind entry then 1 else 0) ≤ toFail kind e j := by
  have herase : toFail kind e j = toFail kind ⟨e.in_flight.erase key, e.deadlines⟩ j +
      if j.dooms e.deadlines key entry && kind entry then 1 else 0 := by
    rw [toFail, (AList.entries_perm_erase h).countP_eq _, List.countP_cons]
    rfl
  rw [herase]
  exact Nat.add_le_add_right
    (toFail_deadlines_le (e := ⟨e.in_flight.erase key, e.deadlines⟩) hrest) _

end AckEngine

/-- The dispatcher has a target left to track, whatever it has sent. -/
def DispatcherPc.hasTarget : DispatcherPc → Bool
  | .tracking _ _ _ => true
  | .sending _ _ todo => !todo.isEmpty
  | _ => false

/-- The message that the DLQ logger is about to push on `main_queue`. -/
def LoggerPc.push : LoggerPc → Option Message
  | .republish m | .auditPush m => some m
  | _ => none

namespace State

/-- The job of the holder of `mu_`. -/
def job (s : State) : Option Job :=
  match s.mu with
  | none => none
  | some (.conn n) => s.conns[n]?.bind fun c => c.pc.job c.sock
  | some .scanner => s.scanner.job

/-- What the holder of `mu_` pushes next, and on which queue. -/
def nextPush (cfg : Config) (s : State) : Option AckEngine.Outcome :=
  s.mu.bind fun holder => (s.failing holder.action).bind fun key =>
    (s.engine.in_flight.lookup key).map (AckEngine.requeueOrDlq cfg.max_retries)

/-- The dispatcher waits for `mu_`, and its holder waits for the dispatcher to make room in
`main_queue`, or for the DLQ logger that does. -/
def CircularWait (cfg : Config) (s : State) : Prop :=
  (∃ m t todo, s.dispatcher = .tracking m t todo) ∧
    ((∃ m, s.nextPush cfg = some (.requeue m) ∧ s.main_queue.push m = none) ∨
      ∃ m, s.nextPush cfg = some (.deadLetter m) ∧ s.dlq.push m = none ∧
        ∃ l, s.logger.push = some l ∧ s.main_queue.push l = none)

/-- There is room for every push that a job is going to make. -/
def hasRoom (cfg : Config) (s : State) (j : Job) : Bool :=
  s.engine.requeues cfg.max_retries j ≤ s.main_queue.free &&
    s.engine.letters cfg.max_retries j ≤ s.dlq.free

/-- The job that an action takes `mu_` for. -/
def takes (s : State) : Action → Option Job
  | .client n => s.conns[n]?.bind fun c =>
      match c.pc with
      | .nackLock msg_id => some (.nack (msg_id, c.sock))
      | .disconnectLock _ => some (.disconnect c.sock)
      | _ => none
  | .scan =>
    match s.scanner with
    | .locking now => some (.scan now)
    | _ => none
  | _ => none

/-- An action that pushes on `main_queue` without `mu_`: a publisher's, or the DLQ logger's. -/
def pushesOutside (s : State) : Action → Bool
  | .client n => s.conns[n]?.any fun c =>
      match c.pc with
      | .publishPush _ => true
      | _ => false
  | .log => s.logger.push.isSome
  | _ => false

end State

/-- The dispatcher routes a message to a target while `mu_` is held only if there is room for the
job that it is held for. -/
def routesWithRoom (cfg : Config) (s : State) (a : Action) : Bool :=
  match a with
  | .route (_ :: _) => s.job.all (s.hasRoom cfg)
  | _ => true

/-- While the dispatcher has a target to track, `mu_` is taken for a job only if there is room for
it. -/
def takesWithRoom (cfg : Config) (s : State) (a : Action) : Bool :=
  !s.dispatcher.hasTarget || (s.takes a).all (s.hasRoom cfg)

/-- While the dispatcher has a target to track, a push from outside leaves the holder of `mu_` its
room. -/
def pushLeavesRoom (cfg : Config) (s : State) (a : Action) : Bool :=
  !s.dispatcher.hasTarget || !s.pushesOutside a ||
    s.job.all fun j => s.engine.requeues cfg.max_retries j < s.main_queue.free

/-- A step leaves the holder of `mu_` room for its pushes. -/
def keepsRoom (cfg : Config) (s : State) (a : Action) : Bool :=
  routesWithRoom cfg s a && takesWithRoom cfg s a && pushLeavesRoom cfg s a

/-! ## Room for the holder -/

theorem SafeQueue.free_push {α : Type} {q q' : SafeQueue α} {x : α} (h : q.push x = some q') :
    q'.free + 1 = q.free := by
  obtain ⟨hqueue, hcapacity, hlt⟩ := push_eq_some h
  simp only [free, hqueue, hcapacity, List.length_append, List.length_singleton]
  omega

theorem SafeQueue.free_tryPop {α : Type} {q q' : SafeQueue α} {x : α}
    (h : q.tryPop = some (x, q')) : q.free ≤ q'.free := by
  obtain ⟨hqueue, hcapacity⟩ := tryPop_eq_some h
  simp only [free, hqueue, hcapacity, List.length_cons]
  omega

theorem hasRoom_iff {j : Job} :
    s.hasRoom cfg j = true ↔ s.engine.requeues cfg.max_retries j ≤ s.main_queue.free ∧
      s.engine.letters cfg.max_retries j ≤ s.dlq.free := by
  simp [State.hasRoom]

/-- A job that fails one of its deliveries leaves the room for the others. -/
theorem Fails.hasRoom {j : Job} {key : DeliveryKey} {rest : List DeadlineEntry}
    (h : Fails cfg { s with engine := { s.engine with deadlines := rest } } key t)
    (hrest : rest ⊆ s.engine.deadlines)
    (hdoom : ∀ entry, s.engine.in_flight.lookup key = some entry →
      j.dooms s.engine.deadlines key entry = true)
    (hroom : s.hasRoom cfg j = true) : t.hasRoom cfg j = true := by
  obtain ⟨hmain, hdlq⟩ := hasRoom_iff.mp hroom
  rw [hasRoom_iff]
  -- What is left to fail, in either case.
  have hless : ∀ (entry : InFlight) (kind : InFlight → Bool),
      s.engine.in_flight.lookup key = some entry →
      AckEngine.toFail kind ⟨s.engine.in_flight.erase key, rest⟩ j +
        (if kind entry then 1 else 0) ≤ AckEngine.toFail kind s.engine j := by
    intro entry kind hentry
    have hle : AckEngine.toFail kind ⟨s.engine.in_flight.erase key, rest⟩ j +
        (if j.dooms s.engine.deadlines key entry && kind entry then 1 else 0) ≤
          AckEngine.toFail kind s.engine j :=
      AckEngine.toFail_erase_le hentry hrest
    rwa [hdoom entry hentry, Bool.true_and] at hle
  cases h with
  | requeue entry main_queue hentry hretry hpush =>
    have hfree : main_queue.free + 1 = s.main_queue.free := SafeQueue.free_push hpush
    have hrequeues : AckEngine.requeues cfg.max_retries ⟨s.engine.in_flight.erase key, rest⟩ j + 1 ≤
        s.engine.requeues cfg.max_retries j := by
      simpa [AckEngine.requeues, hretry] using
        hless entry (fun entry => entry.retry_count < cfg.max_retries) hentry
    have hletters : AckEngine.letters cfg.max_retries ⟨s.engine.in_flight.erase key, rest⟩ j ≤
        s.engine.letters cfg.max_retries j :=
      (Nat.le_add_right ..).trans (hless entry _ hentry)
    exact ⟨Nat.le_of_add_le_add_right (hrequeues.trans (hmain.trans hfree.ge)), hletters.trans hdlq⟩
  | deadLetter entry dlq hentry hretry hpush =>
    have hfree : dlq.free + 1 = s.dlq.free := SafeQueue.free_push hpush
    have hrequeues : AckEngine.requeues cfg.max_retries ⟨s.engine.in_flight.erase key, rest⟩ j ≤
        s.engine.requeues cfg.max_retries j :=
      (Nat.le_add_right ..).trans (hless entry _ hentry)
    have hletters : AckEngine.letters cfg.max_retries ⟨s.engine.in_flight.erase key, rest⟩ j + 1 ≤
        s.engine.letters cfg.max_retries j := by
      simpa [AckEngine.letters, hretry] using
        hless entry (fun entry => cfg.max_retries ≤ entry.retry_count) hentry
    exact ⟨hrequeues.trans hmain, Nat.le_of_add_le_add_right (hletters.trans (hdlq.trans hfree.ge))⟩

/-! ## The mutex -/

/-- Failing a delivery leaves the mutex and the threads alone. -/
theorem Fails.threads_eq {key : DeliveryKey} (h : Fails cfg s key t) :
    t.mu = s.mu ∧ t.conns = s.conns ∧ t.scanner = s.scanner ∧ t.dispatcher = s.dispatcher := by
  cases h <;> exact ⟨rfl, rfl, rfl, rfl⟩

/-- A thread that does a job holds `mu_`. -/
structure Owned (s : State) : Prop where
  /-- The threads of the connections do. -/
  conns : ∀ (k : ℕ) (c : Conn), s.conns[k]? = some c → c.pc.job c.sock ≠ none →
    s.mu = some (.conn k)
  /-- So does the scanner. -/
  scanner : s.scanner.job ≠ none → s.mu = some .scanner

/-- Threads that have moved on to where they do no job leave the others as they were. -/
theorem Owned.conns_goTo (hs : Owned s) {n : ℕ} {pc : ClientPc} (hpc : ∀ sock, pc.job sock = none)
    {k : ℕ} {c : Conn} (hk : (goTo s.conns n pc)[k]? = some c) (hc : c.pc.job c.sock ≠ none) :
    k ≠ n ∧ s.mu = some (.conn k) := by
  rcases getElem?_goTo hk with ⟨rfl, c₀, -, rfl⟩ | ⟨hne, hk⟩
  · exact absurd (hpc _) hc
  · exact ⟨hne, hs.conns k c hk hc⟩

/-- A step keeps the jobs with the holder of `mu_`. -/
theorem Owned.step (hs : Owned s) (h : s.step cfg a = some t) : Owned t := by
  -- A job is under way in no thread while the mutex is free, and in one only while it is not.
  have hfree : s.mu = none → ∀ {k : ℕ} {c : Conn}, s.conns[k]? = some c →
      c.pc.job c.sock = none := by
    intro hmu k c hk
    by_contra hc
    simp [hs.conns k c hk hc] at hmu
  have hsleeps : ∀ {k : ℕ}, s.mu = some (.conn k) → s.scanner.job = none := by
    intro k hmu
    by_contra hc
    simp [hs.scanner hc] at hmu
  have hasleep : s.mu = none → s.scanner.job = none := by
    intro hmu
    by_contra hc
    simp [hs.scanner hc] at hmu
  cases step_sound h with
  | accept sock hopen =>
    refine ⟨fun k c hk hc => ?_, hs.scanner⟩
    rw [List.getElem?_append] at hk
    split_ifs at hk with hlt
    · exact hs.conns k c hk hc
    · obtain rfl : c = ⟨sock, .reading⟩ := by simpa using List.mem_of_getElem? hk
      exact absurd rfl hc
  | publish | ack | nack | errorResp | hangup | publishAppend | publishPush | ackEngine | ackWal
  | nackNone | eraseClient | unsubscribe =>
    exact ⟨fun k c hk hc => (hs.conns_goTo (fun _ => rfl) hk hc).2, hs.scanner⟩
  | nackLock n c₀ msg_id entry hn hpc hmu | disconnectLock n c₀ closing hn hpc hmu =>
    refine ⟨fun k c hk hc => ?_, fun hc => absurd (hasleep hmu) hc⟩
    rcases getElem?_goTo hk with ⟨rfl, -⟩ | ⟨-, hk⟩
    · rfl
    · exact absurd (hfree hmu hk) hc
  | nackPush n c₀ msg_id u hn hpc hfail =>
    have hmu := hs.conns n c₀ hn (by simp [hpc, ClientPc.job])
    refine ⟨fun k c hk hc => ?_, fun hc => absurd (hsleeps hmu) ?_⟩
    · rw [hfail.conns_eq] at hk
      obtain ⟨hne, hk⟩ := hs.conns_goTo (fun _ => rfl) hk hc
      simp [hmu, hne.symm] at hk
    · simpa [hfail.threads_eq.2.2.1] using hc
  | disconnectDone n c₀ closing hn hpc hkey =>
    have hmu := hs.conns n c₀ hn (by simp [hpc, ClientPc.job])
    refine ⟨fun k c hk hc => ?_, fun hc => absurd (hsleeps hmu) hc⟩
    obtain ⟨hne, hk⟩ := hs.conns_goTo (fun _ => by cases closing <;> rfl) hk hc
    simp [hmu, hne.symm] at hk
  | disconnectPush n c₀ closing key t hn hpc hkey hfail =>
    obtain ⟨hmu, hconns, hscanner, -⟩ := hfail.threads_eq
    exact ⟨fun k c hk hc => hmu.trans (hs.conns k c (hconns ▸ hk) hc),
      fun hc => hmu.trans (hs.scanner (hscanner ▸ hc))⟩
  | scanPush now deadline key rest entry t hpc hhead hnow hentry hdue hfail =>
    obtain ⟨hmu, hconns, hscanner, -⟩ := hfail.threads_eq
    exact ⟨fun k c hk hc => hmu.trans (hs.conns k c (hconns ▸ hk) hc),
      fun hc => hmu.trans (hs.scanner (hscanner ▸ hc))⟩
  | wake now hpc => exact ⟨hs.conns, fun hc => absurd rfl hc⟩
  | scanLock now hpc hmu => exact ⟨fun k c hk hc => absurd (hfree hmu hk) hc, fun _ => rfl⟩
  | scanDone now hpc hnone =>
    have hmu := hs.scanner (by simp [hpc, ScannerPc.job])
    refine ⟨fun k c hk hc => ?_, fun hc => absurd rfl hc⟩
    simp [hs.conns k c hk hc] at hmu
  | _ => exact ⟨hs.conns, hs.scanner⟩

/-- The job of the holder of `mu_` goes on, or is the one that it has just been taken for. -/
theorem step_job (h : s.step cfg a = some t) {j : Job} (hj : t.job = some j) :
    s.job = some j ∨ s.takes a = some j ∧ t.hasRoom cfg j = s.hasRoom cfg j := by
  -- A step that leaves the mutex and the scanner alone, and no thread of a connection with a job.
  have hsame : t.mu = s.mu → t.scanner = s.scanner →
      (∀ (k : ℕ) (c : Conn), t.conns[k]? = some c → c.pc.job c.sock ≠ none →
        s.conns[k]? = some c) → s.job = some j := by
    intro hmu hscanner hconns
    rw [State.job, hmu] at hj
    rw [State.job]
    split at hj
    · cases hj
    · obtain ⟨c, hc, hj⟩ := Option.bind_eq_some_iff.mp hj
      simp [hconns _ c hc (by simp [hj]), hj]
    · rwa [hscanner] at hj
  have hgoTo : ∀ {n : ℕ} {pc : ClientPc}, (∀ sock, pc.job sock = none) → ∀ (k : ℕ) (c : Conn),
      (goTo s.conns n pc)[k]? = some c → c.pc.job c.sock ≠ none → s.conns[k]? = some c := by
    intro n pc hpc k c hk hc
    rcases getElem?_goTo hk with ⟨-, c₀, -, rfl⟩ | ⟨-, hk⟩
    · exact absurd (hpc _) hc
    · exact hk
  cases step_sound h with
  | accept sock hopen =>
    refine .inl (hsame rfl rfl fun k c hk hc => ?_)
    rw [List.getElem?_append] at hk
    split_ifs at hk with hlt
    · exact hk
    · obtain rfl : c = ⟨sock, .reading⟩ := by simpa using List.mem_of_getElem? hk
      exact absurd rfl hc
  | publish | ack | nack | errorResp | hangup | publishAppend | publishPush | ackEngine | ackWal
  | nackNone | eraseClient | unsubscribe =>
    exact .inl (hsame rfl rfl (hgoTo fun _ => rfl))
  | nackLock n c msg_id entry hn hpc hmu =>
    refine .inr ⟨?_, rfl⟩
    simpa [State.job, getElem?_goTo_self _ hn, ClientPc.job, State.takes, hn, hpc] using hj
  | disconnectLock n c closing hn hpc hmu =>
    refine .inr ⟨?_, rfl⟩
    simpa [State.job, getElem?_goTo_self _ hn, ClientPc.job, State.takes, hn, hpc] using hj
  | scanLock now hpc hmu =>
    refine .inr ⟨?_, rfl⟩
    simpa [State.job, ScannerPc.job, State.takes, hpc] using hj
  | nackPush | disconnectDone | scanDone => simp [State.job] at hj
  | disconnectPush n c closing key t hn hpc hkey hfail =>
    obtain ⟨hmu, hconns, hscanner, -⟩ := hfail.threads_eq
    exact .inl (hsame hmu hscanner fun k c hk _ => hconns ▸ hk)
  | scanPush now deadline key rest entry t hpc hhead hnow hentry hdue hfail =>
    obtain ⟨hmu, hconns, hscanner, -⟩ := hfail.threads_eq
    exact .inl (hsame hmu hscanner fun k c hk _ => hconns ▸ hk)
  | wake now hpc =>
    rw [State.job] at hj
    split at hj
    · cases hj
    · rename_i hmu
      exact .inl (by simpa [State.job, show s.mu = _ from hmu] using hj)
    · cases hj
  | _ => exact .inl (hsame rfl rfl fun k c hk _ => hk)

/-- While a job goes on, a step leaves its room. -/
theorem room_step (hs : Owned s) (h : s.step cfg a = some t) {j : Job} (hj : s.job = some j)
    (hj' : t.job = some j) (hroom : s.hasRoom cfg j = true)
    (hpushes : s.pushesOutside a = true →
      s.engine.requeues cfg.max_retries j < s.main_queue.free) : t.hasRoom cfg j = true := by
  obtain ⟨hmain, hdlq⟩ := hasRoom_iff.mp hroom
  have hfree : s.mu ≠ none := fun hmu => by simp [State.job, hmu] at hj
  -- A push from outside.
  have hpush : ∀ {m : Message} {q : SafeQueue Message}, s.main_queue.push m = some q →
      s.pushesOutside a = true → s.engine.requeues cfg.max_retries j ≤ q.free := by
    intro m q hpush hout
    have hlt := hpushes hout
    have hq := SafeQueue.free_push hpush
    omega
  cases step_sound h with
  | publishPush n c m main_queue hn hpc hpushed =>
    exact hasRoom_iff.mpr ⟨hpush hpushed (by simp [State.pushesOutside, hn, hpc]), hdlq⟩
  | republish m main_queue hpc hpushed =>
    exact hasRoom_iff.mpr ⟨hpush hpushed (by simp [State.pushesOutside, hpc, LoggerPc.push]), hdlq⟩
  | auditPush sys main_queue hpc hpushed =>
    exact hasRoom_iff.mpr ⟨hpush hpushed (by simp [State.pushesOutside, hpc, LoggerPc.push]), hdlq⟩
  | ackEngine n c msg_id hn hpc hmu => exact absurd hmu hfree
  | track now m t todo hpc hmu => exact absurd hmu hfree
  | nackPush n c msg_id u hn hpc hfail => simp [State.job] at hj'
  | disconnectPush n c closing key t hn hpc hkey hfail =>
    have hmu := hs.conns n c hn (by simp [hpc, ClientPc.job])
    obtain rfl : .disconnect c.sock = j := by
      simpa [State.job, hmu, hn, hpc, ClientPc.job] using hj
    refine hfail.hasRoom (List.Subset.refl _) (fun entry hentry => ?_) hroom
    obtain ⟨entry', hentry', hsub⟩ := AckEngine.nextOf_mem hkey
    obtain rfl := Option.some.inj (hentry.symm.trans hentry')
    simpa [Job.dooms] using hsub
  | scanPush now deadline key rest entry t hpc hhead hnow hentry hdue hfail =>
    have hmu := hs.scanner (by simp [hpc, ScannerPc.job])
    obtain rfl : .scan now = j := by simpa [State.job, hmu, hpc, ScannerPc.job] using hj
    refine hfail.hasRoom (by simp [hhead]) (fun entry' hentry' => ?_) hroom
    obtain rfl := Option.some.inj (hentry.symm.trans hentry')
    simp [Job.dooms, hhead, hnow, hdue]
  | scanSkip now deadline key rest hpc hhead hnow hentry =>
    have hrest : rest ⊆ s.engine.deadlines := by simp [hhead]
    exact hasRoom_iff.mpr ⟨(AckEngine.toFail_deadlines_le hrest).trans hmain,
      (AckEngine.toFail_deadlines_le hrest).trans hdlq⟩
  | pop m main_queue hpc hpop =>
    exact hasRoom_iff.mpr ⟨hmain.trans (SafeQueue.free_tryPop hpop), hdlq⟩
  | logPop m dlq hpc hpop =>
    exact hasRoom_iff.mpr ⟨hmain, hdlq.trans (SafeQueue.free_tryPop hpop)⟩
  | _ => exact hroom

/-- The dispatcher comes to have a target by routing a message. -/
theorem step_hasTarget (h : s.step cfg a = some t) (ht : t.dispatcher.hasTarget = true) :
    s.dispatcher.hasTarget = true ∨ (∃ target todo, a = .route (target :: todo) ∧
      ∀ j, t.hasRoom cfg j = s.hasRoom cfg j ∧ t.job = s.job) := by
  cases step_sound h with
  | pop | drop => simp [DispatcherPc.hasTarget] at ht
  | route m target todo hpc hperm => exact .inr ⟨target, todo, rfl, fun _ => ⟨rfl, rfl⟩⟩
  | track now m target todo hpc hmu => exact .inl (by simp [hpc, DispatcherPc.hasTarget])
  | sendWritten m target todo n hpc hn | sendGone m target todo hpc hn =>
    left
    cases todo with
    | nil => simp [DispatcherPc.next, DispatcherPc.hasTarget] at ht
    | cons target' todo => simp [hpc, DispatcherPc.hasTarget]
  | nackPush n c msg_id u hn hpc hfail => exact .inl (hfail.threads_eq.2.2.2 ▸ ht)
  | disconnectPush n c closing key t hn hpc hkey hfail =>
    exact .inl (hfail.threads_eq.2.2.2 ▸ ht)
  | scanPush now deadline key rest entry t hpc hhead hnow hentry hdue hfail =>
    have heq := hfail.threads_eq.2.2.2
    exact .inl (heq ▸ ht)
  | _ => exact .inl ht

/-! ## Runs -/

/-- While the dispatcher has a target to track, there is room for the job of the holder of `mu_`. -/
structure Reserved (cfg : Config) (s : State) : Prop where
  /-- The jobs are with the holder. -/
  owned : Owned s
  /-- There is room. -/
  room : s.dispatcher.hasTarget = true → ∀ j, s.job = some j → s.hasRoom cfg j = true

/-- A step that leaves the room keeps it reserved. -/
theorem Reserved.step (hs : Reserved cfg s) (hok : keepsRoom cfg s a = true)
    (h : s.step cfg a = some t) : Reserved cfg t := by
  obtain ⟨⟨hroutes, htakes⟩, hpushes⟩ : (routesWithRoom cfg s a = true ∧
      takesWithRoom cfg s a = true) ∧ pushLeavesRoom cfg s a = true := by
    simpa [keepsRoom] using hok
  refine ⟨hs.owned.step h, fun ht j hj => ?_⟩
  rcases step_hasTarget h ht with htarget | ⟨target, todo, rfl, hsame⟩
  · rcases step_job h hj with hold | ⟨hnew, hroom⟩
    · refine room_step hs.owned h hold hj (hs.room htarget j hold) fun hout => ?_
      simpa [pushLeavesRoom, htarget, hout, hold] using hpushes
    · rw [hroom]
      simpa [takesWithRoom, htarget, hnew] using htakes
  · obtain ⟨hroom, hjob⟩ := hsame j
    rw [hroom]
    simpa [routesWithRoom, ← hjob, hj] using hroutes

/-- After a start nobody has a job. -/
theorem reserved_of_start {file : Bytes} {order : List Message}
    (h : State.start cfg file order = some s) : Reserved cfg s := by
  unfold State.start at h
  split_ifs at h
  obtain rfl := Option.some.inj h
  refine ⟨⟨by simp, by simp [ScannerPc.job]⟩, by simp [DispatcherPc.hasTarget]⟩

/-- What the holder of `mu_` pushes next is one of the pushes of its job. -/
theorem doomed_of_nextPush {outcome : AckEngine.Outcome} (h : s.nextPush cfg = some outcome) :
    ∃ j key entry, s.job = some j ∧ s.engine.in_flight.lookup key = some entry ∧
      j.dooms s.engine.deadlines key entry = true ∧
      AckEngine.requeueOrDlq cfg.max_retries entry = outcome := by
  obtain ⟨holder, hmu, h⟩ := Option.bind_eq_some_iff.mp h
  obtain ⟨key, hkey, h⟩ := Option.bind_eq_some_iff.mp h
  obtain ⟨entry, hentry, houtcome⟩ := Option.map_eq_some_iff.mp h
  -- The holder is a connection in `nack` or in `client_disconnected`, or the scanner.
  cases holder with
  | conn n =>
    obtain ⟨c, hc, hkey⟩ := Option.bind_eq_some_iff.mp hkey
    cases hpc : c.pc with
    | nackPush msg_id =>
      obtain rfl : (msg_id, c.sock) = key := by simpa [hpc] using hkey
      exact ⟨.nack (msg_id, c.sock), _, entry, by simp [State.job, hmu, hc, hpc, ClientPc.job],
        hentry, by simp [Job.dooms], houtcome⟩
    | disconnectLoop closing =>
      obtain ⟨entry', hentry', hsub⟩ := AckEngine.nextOf_mem (by simpa [hpc] using hkey)
      obtain rfl := Option.some.inj (hentry.symm.trans hentry')
      exact ⟨.disconnect c.sock, key, entry, by simp [State.job, hmu, hc, hpc, ClientPc.job],
        hentry,
        by simpa [Job.dooms] using hsub, houtcome⟩
    | _ => simp [hpc] at hkey
  | scanner =>
    simp only [State.failing, Holder.action] at hkey
    split at hkey
    · rename_i now deadline key' rest hpc hhead
      split_ifs at hkey with hdue
      obtain rfl := Option.some.inj hkey
      obtain ⟨hnow, entry', hentry', hle⟩ := hdue
      obtain rfl := Option.some.inj (hentry.symm.trans hentry')
      exact ⟨.scan now, key', entry, by simp [State.job, hmu, hpc, ScannerPc.job], hentry,
        by simp [Job.dooms, hhead, hnow, hle], houtcome⟩
    · cases hkey

/-- A job that is going to fail a delivery has it to fail. -/
theorem AckEngine.toFail_pos {e : AckEngine} {j : Job} {kind : InFlight → Bool} {key : DeliveryKey}
    {entry : InFlight} (hentry : e.in_flight.lookup key = some entry)
    (hdoom : j.dooms e.deadlines key entry = true) (hkind : kind entry = true) :
    0 < e.toFail kind j :=
  List.countP_pos_iff.mpr ⟨⟨key, entry⟩, AList.mem_entries_iff.mpr hentry, by simp [hdoom, hkind]⟩

/-- The dispatcher never waits for `mu_` while its holder waits for the dispatcher, or for a DLQ
logger that does: in every run whose steps leave the holder room for its pushes. -/
theorem no_circular_wait {file : Bytes} {order : List Message}
    (hstart : State.start cfg file order = some s)
    (hrun : Run (State.step cfg) (keepsRoom cfg · ·) s as t) : ¬t.CircularWait cfg := by
  have hinv : Reserved cfg t :=
    hrun.invariant (fun s a t hs hok h => hs.step hok h) (reserved_of_start hstart)
  -- A push that waits has found its queue full.
  have hfull : ∀ {q : SafeQueue Message} {m : Message}, q.push m = none → q.free = 0 := by
    intro q m h
    have hlen := SafeQueue.push_eq_none.mp h
    simp [SafeQueue.free, hlen]
  rintro ⟨⟨m, target, todo, hdispatcher⟩, ⟨l, hpush, hwait⟩ | ⟨l, hpush, hwait, -⟩⟩
  · obtain ⟨j, key, entry, hj, hentry, hdoom, houtcome⟩ := doomed_of_nextPush hpush
    have hroom := hinv.room (by simp [hdispatcher, DispatcherPc.hasTarget]) j hj
    -- The push is a requeue, so the queue in question is `main_queue`.
    have hretry : entry.retry_count < cfg.max_retries := by
      by_contra hge
      simp [AckEngine.requeueOrDlq, not_lt.mp hge] at houtcome
    have hpos : 0 < t.engine.requeues cfg.max_retries j :=
      AckEngine.toFail_pos hentry hdoom (by simpa using hretry)
    have hle := (hasRoom_iff.mp hroom).1
    have hzero := hfull hwait
    omega
  · obtain ⟨j, key, entry, hj, hentry, hdoom, houtcome⟩ := doomed_of_nextPush hpush
    have hroom := hinv.room (by simp [hdispatcher, DispatcherPc.hasTarget]) j hj
    -- The push is a dead letter, so it is `dlq`.
    have hretry : cfg.max_retries ≤ entry.retry_count := by
      by_contra hlt
      simp [AckEngine.requeueOrDlq, hlt] at houtcome
    have hpos : 0 < t.engine.letters cfg.max_retries j :=
      AckEngine.toFail_pos hentry hdoom (by simpa using hretry)
    have hle := (hasRoom_iff.mp hroom).2
    have hzero := hfull hwait
    omega

/-- With a queue for two messages: a client refuses the first of two messages while the dispatcher
is about to track the second and the queue is empty. -/
def emptyQueue : List Action :=
  [.accept 5, .accept 6, .frame 0 0x02 0 [0, 1, 0x74, 0, 0], .frame 1 0x01 0 [0, 1, 0x74],
    .client 1, .client 1, .pop, .route [⟨[0x74], ascii "__unique_5", 5⟩], .track 0, .send,
    .frame 1 0x01 0 [0, 1, 0x74], .client 1, .client 1, .pop,
    .route [⟨[0x74], ascii "__unique_5", 5⟩], .frame 0 0x04 1 [], .client 0]

/-- That run leaves the room, and the dispatcher waits for a holder of `mu_` that does not wait. -/
theorem no_circular_wait_emptyQueue :
    ∃ t, Run (State.step ⟨2, 3, 5000⟩) (keepsRoom ⟨2, 3, 5000⟩ · ·) (State.init ⟨2, 3, 5000⟩)
        emptyQueue t ∧ t.mu = some (.conn 0) ∧ t.dispatcher.hasTarget = true ∧
      ¬t.CircularWait ⟨2, 3, 5000⟩ := by
  obtain ⟨t, ht, hend⟩ := (Option.any_eq_true _ _).mp
    (show (execChecked (State.step ⟨2, 3, 5000⟩) (keepsRoom ⟨2, 3, 5000⟩ · ·)
      (State.init ⟨2, 3, 5000⟩) emptyQueue).any (fun t =>
        t.mu = some (.conn 0) ∧ t.dispatcher.hasTarget = true) = true
      by decide)
  obtain ⟨hmu, htarget⟩ := of_decide_eq_true hend
  exact ⟨t, run_of_execChecked ht, hmu, htarget,
    no_circular_wait (State.start_nil _) (run_of_execChecked ht)⟩

/-- With a queue for one message: a client refuses the first of two messages while the dispatcher is
about to track the second and a third is in the queue. -/
def fullQueue : List Action :=
  [.accept 5, .accept 6, .frame 0 0x02 0 [0, 1, 0x74, 0, 0], .frame 1 0x01 0 [0, 1, 0x74],
    .client 1, .client 1, .pop, .route [⟨[0x74], ascii "__unique_5", 5⟩], .track 0, .send,
    .frame 1 0x01 0 [0, 1, 0x74], .client 1, .client 1, .pop,
    .route [⟨[0x74], ascii "__unique_5", 5⟩], .frame 1 0x01 0 [0, 1, 0x74], .client 1, .client 1,
    .frame 0 0x04 1 [], .client 0]

/-- That run ends in a circular wait. -/
theorem refusal_waits_circularly :
    ∃ t, exec (State.step ⟨1, 3, 5000⟩) (State.init ⟨1, 3, 5000⟩) fullQueue = some t ∧
      t.CircularWait ⟨1, 3, 5000⟩ := by
  obtain ⟨t, ht, hend⟩ := (Option.any_eq_true _ _).mp
    (show (exec (State.step ⟨1, 3, 5000⟩) (State.init ⟨1, 3, 5000⟩) fullQueue).any (fun t =>
        t.dispatcher = .tracking ⟨2, [0x74], [], 0, 1⟩ ⟨[0x74], ascii "__unique_5", 5⟩ [] ∧
        t.nextPush ⟨1, 3, 5000⟩ = some (.requeue ⟨1, [0x74], [], 1, 0⟩) ∧
        (t.main_queue.push ⟨1, [0x74], [], 1, 0⟩).isNone) = true
      by decide)
  obtain ⟨hdispatcher, hpush, hfull⟩ := of_decide_eq_true hend
  exact ⟨t, ht, ⟨_, _, _, hdispatcher⟩, .inl ⟨_, hpush, Option.isNone_iff_eq_none.mp hfull⟩⟩

end EventQueue.Broker
