import EventQueue.Broker.CircularWait

/-!
# A circular wait does not end

Once the dispatcher and the holder of `AckEngine::mu_` wait for each other, no thread can help them.
The queue is full, so nobody pushes on it, and only the dispatcher pops; the mutex is held, so that
nobody else reads or changes the deliveries in flight. What is left are frames that come in, up to
the first lock or push of their handlers, heartbeats, and the log.

`Standstill` is what a step leaves as it was, and `circular_wait_is_forever` what a run does. The
broker still answers heartbeats then, so that the gateway does not reconnect.
-/

namespace EventQueue.Broker

open Transition
open TopicRouter (Target)

variable {cfg : Config} {s t u : State} {a : Action} {as bs : List Action} {holder : Holder}
  {key : DeliveryKey}

/-- An event that needs neither `mu_` nor room in `main_queue`: a frame has come in, or an audit
event was made. -/
def Event.isIntake : Event → Bool
  | .published _ _ | .acked _ _ | .heartbeat _ | .audited _ => true
  | _ => false

namespace State.CircularWait

/-- The queue of the dispatcher is full. -/
theorem main_full (h : s.CircularWait cfg) (m : Message) : s.main_queue.push m = none := by
  have hfull : ∀ {l : Message}, s.main_queue.push l = none → s.main_queue.push m = none :=
    fun hl => SafeQueue.push_eq_none.mpr (SafeQueue.push_eq_none.mp hl)
  rcases h.2 with ⟨_, -, hpush⟩ | ⟨_, -, -, _, -, hpush⟩
  · exact hfull hpush
  · exact hfull hpush

/-- The mutex is held, and its holder is about to fail a delivery. -/
theorem exists_failing (h : s.CircularWait cfg) :
    ∃ holder key, s.mu = some holder ∧ s.failing holder.action = some key := by
  obtain ⟨outcome, hpush⟩ : ∃ outcome, s.nextPush cfg = some outcome := by
    rcases h.2 with ⟨m, hpush, -⟩ | ⟨m, hpush, -⟩
    · exact ⟨_, hpush⟩
    · exact ⟨_, hpush⟩
  obtain ⟨holder, hmu, hpush⟩ := Option.bind_eq_some_iff.mp hpush
  obtain ⟨key, hkey, -⟩ := Option.bind_eq_some_iff.mp hpush
  exact ⟨holder, key, hmu, hkey⟩

/-- It cannot, whatever became of the deadlines. -/
theorem not_fails (h : s.CircularWait cfg) (hmu : s.mu = some holder)
    (hkey : s.failing holder.action = some key) (rest : List DeadlineEntry) :
    ¬Fails cfg { s with engine := { s.engine with deadlines := rest } } key u := by
  have hnext : s.nextPush cfg =
      (s.engine.in_flight.lookup key).map (AckEngine.requeueOrDlq cfg.max_retries) := by
    rw [State.nextPush, hmu, Option.bind_some, hkey, Option.bind_some]
  intro hfails
  cases hfails with
  | requeue entry main_queue hentry hretry hpush =>
    simp [h.main_full] at hpush
  | deadLetter entry dlq hentry hretry hpush =>
    have houtcome : AckEngine.requeueOrDlq cfg.max_retries entry = .deadLetter entry.dlqMsg := by
      simp [AckEngine.requeueOrDlq, hretry]
    rw [show s.engine.in_flight.lookup key = some entry from hentry, Option.map_some,
      houtcome] at hnext
    rcases h.2 with ⟨m, hm, -⟩ | ⟨m, hm, hfull, -⟩
    · cases hnext.symm.trans hm
    · have hfull : s.dlq.push entry.dlqMsg = none :=
        SafeQueue.push_eq_none.mpr (SafeQueue.push_eq_none.mp hfull)
      simp [hfull] at hpush

end State.CircularWait

/-- What stands still while the dispatcher and the holder of `mu_` wait for each other. -/
structure Standstill (s t : State) : Prop where
  /-- The mutex stays with its holder. -/
  mu : t.mu = s.mu
  /-- Nothing is pushed on the queue of the dispatcher, and nothing popped. -/
  main_queue : t.main_queue = s.main_queue
  /-- The deliveries in flight and their deadlines stay. -/
  engine : t.engine = s.engine
  /-- So does the dispatcher. -/
  dispatcher : t.dispatcher = s.dispatcher
  /-- So does the thread of a connection that holds the mutex. -/
  conn : ∀ n, s.mu = some (.conn n) → t.conns[n]? = s.conns[n]?
  /-- So does the scanner that holds it. -/
  scanner : s.mu = some .scanner → t.scanner = s.scanner
  /-- So do the DLQ logger and its queue, when it waits for the dispatcher. -/
  logger : s.logger.push ≠ none → t.logger = s.logger ∧ t.dlq = s.dlq
  /-- Nothing but the intake is recorded. -/
  trace : ∃ new, t.trace = s.trace ++ new ∧ ∀ e ∈ new, e.isIntake = true

namespace Standstill

theorem refl (s : State) : Standstill s s :=
  ⟨rfl, rfl, rfl, rfl, fun _ _ => rfl, fun _ => rfl, fun _ => ⟨rfl, rfl⟩, [], by simp⟩

theorem trans (h : Standstill s t) (h' : Standstill t u) : Standstill s u := by
  refine ⟨h'.mu.trans h.mu, h'.main_queue.trans h.main_queue, h'.engine.trans h.engine,
    h'.dispatcher.trans h.dispatcher, fun n hn => ?_, fun hs => ?_, fun hpush => ?_, ?_⟩
  · exact (h'.conn n (h.mu.trans hn)).trans (h.conn n hn)
  · exact (h'.scanner (h.mu.trans hs)).trans (h.scanner hs)
  · obtain ⟨hlogger, hdlq⟩ := h.logger hpush
    obtain ⟨hlogger', hdlq'⟩ := h'.logger (by rwa [hlogger])
    exact ⟨hlogger'.trans hlogger, hdlq'.trans hdlq⟩
  · obtain ⟨new, htrace, hnew⟩ := h.trace
    obtain ⟨new', htrace', hnew'⟩ := h'.trace
    exact ⟨new ++ new', by rw [htrace', htrace, List.append_assoc],
      List.forall_mem_append.mpr ⟨hnew, hnew'⟩⟩

/-- The holder of the mutex is about to make the same push. -/
theorem nextPush_eq (h : Standstill s t) : t.nextPush cfg = s.nextPush cfg := by
  unfold State.nextPush
  rw [h.mu, h.engine]
  cases hmu : s.mu with
  | none => rfl
  | some holder =>
    have hfailing : t.failing holder.action = s.failing holder.action := by
      cases holder with
      | conn n => simp only [Holder.action, State.failing, h.conn n hmu, h.engine]
      | scanner => simp only [Holder.action, State.failing, h.scanner hmu, h.engine]
    rw [Option.bind_some, Option.bind_some, hfailing]

/-- So the wait goes on. -/
theorem circularWait (h : Standstill s t) (hwait : s.CircularWait cfg) : t.CircularWait cfg := by
  obtain ⟨⟨m, target, todo, hdispatcher⟩, hpush⟩ := hwait
  refine ⟨⟨m, target, todo, h.dispatcher.trans hdispatcher⟩, ?_⟩
  rw [h.nextPush_eq, h.main_queue]
  rcases hpush with hpush | ⟨l, hpush, hfull, l', hlogger, hwait⟩
  · exact .inl hpush
  · obtain ⟨hlogger', hdlq⟩ := h.logger (by simp [hlogger])
    exact .inr ⟨l, hpush, by rwa [hdlq], l', by rw [hlogger', hlogger], hwait⟩

end Standstill

/-- The thread of a connection that is about to fail a delivery does a job. -/
theorem job_of_failing {n : ℕ} {c : Conn} (hn : s.conns[n]? = some c)
    (hkey : s.failing (.client n) = some key) : c.pc.job c.sock ≠ none := by
  simp only [State.failing, hn, Option.bind_some] at hkey
  split at hkey
  · simp [*, ClientPc.job]
  · simp [*, ClientPc.job]
  · cases hkey

/-- No thread can help. -/
theorem standstill_of_step (hs : Owned s) (hwait : s.CircularWait cfg)
    (h : s.step cfg a = some t) : Standstill s t := by
  obtain ⟨⟨m₀, target₀, todo₀, hdispatcher⟩, -⟩ := id hwait
  obtain ⟨holder, key₀, hmu, hkey₀⟩ := hwait.exists_failing
  have hheld : s.mu ≠ none := by simp [hmu]
  -- A thread that does no job is not the holder, so that the holder stays where it is.
  have hmoves : ∀ {n : ℕ} {c : Conn} {pc : ClientPc}, s.conns[n]? = some c →
      c.pc.job c.sock = none → ∀ k, s.mu = some (.conn k) →
        (goTo s.conns n pc)[k]? = s.conns[k]? := by
    intro n c pc hn hjob k hk
    obtain rfl : holder = .conn k := Option.some.inj (hmu.symm.trans hk)
    refine getElem?_goTo_of_ne fun heq => ?_
    subst heq
    exact job_of_failing hn hkey₀ hjob
  -- What the holder is about to fail is what its thread is about to fail.
  have hconn : ∀ {n : ℕ} {c : Conn}, s.conns[n]? = some c → c.pc.job c.sock ≠ none →
      s.mu = some (.conn n) ∧ s.failing (.client n) = some key₀ := by
    intro n c hn hjob
    have hn := hs.conns n c hn hjob
    obtain rfl : holder = .conn n := Option.some.inj (hmu.symm.trans hn)
    exact ⟨hn, hkey₀⟩
  have hscan : s.scanner.job ≠ none → s.mu = some .scanner ∧ s.failing .scan = some key₀ := by
    intro hjob
    have hn := hs.scanner hjob
    obtain rfl : holder = .scanner := Option.some.inj (hmu.symm.trans hn)
    exact ⟨hn, hkey₀⟩
  have hnever : ∀ {m : Message} {q : SafeQueue Message} {P : Prop},
      s.main_queue.push m = some q → P := by
    intro m q P hpush
    rw [hwait.main_full] at hpush
    cases hpush
  cases step_sound h with
  | accept sock hfree =>
    refine ⟨rfl, rfl, rfl, rfl, fun k hk => ?_, fun _ => rfl, fun _ => ⟨rfl, rfl⟩, [], by simp⟩
    obtain rfl : holder = .conn k := Option.some.inj (hmu.symm.trans hk)
    obtain ⟨c, hc, -⟩ := Option.bind_eq_some_iff.mp hkey₀
    exact List.getElem?_append_left (List.getElem?_eq_some_iff.mp hc).1
  | ignore => exact .refl s
  | subscribe | flush | stopWal =>
    exact ⟨rfl, rfl, rfl, rfl, fun _ _ => rfl, fun _ => rfl, fun _ => ⟨rfl, rfl⟩, [], by simp⟩
  | publish n c type msg_id payload m hn hpc | ack n c type msg_id payload hn hpc =>
    exact ⟨rfl, rfl, rfl, rfl, hmoves hn (by simp [hpc, ClientPc.job]), fun _ => rfl,
      fun _ => ⟨rfl, rfl⟩, _, rfl, by simp [Event.isIntake]⟩
  | nack n c type msg_id payload hn hpc | errorResp n c type msg_id payload hn hpc
  | hangup n c hn hpc | publishAppend n c m hn hpc | ackWal n c msg_id hn hpc
  | eraseClient n c hn hpc | unsubscribe n c closing hn hpc =>
    exact ⟨rfl, rfl, rfl, rfl, hmoves hn (by simp [hpc, ClientPc.job]), fun _ => rfl,
      fun _ => ⟨rfl, rfl⟩, [], by simp⟩
  | heartbeat =>
    exact ⟨rfl, rfl, rfl, rfl, fun _ _ => rfl, fun _ => rfl, fun _ => ⟨rfl, rfl⟩, _, rfl,
      by simp [Event.isIntake]⟩
  | publishPush n c m main_queue hn hpc hpush => exact hnever hpush
  | republish m main_queue hpc hpush => exact hnever hpush
  | auditPush sys main_queue hpc hpush => exact hnever hpush
  | ackEngine | nackNone | nackLock | disconnectLock | scanLock => contradiction
  | track now m target todo hpc hmu' => exact absurd hmu' hheld
  | nackPush n c msg_id u hn hpc hfail =>
    obtain ⟨hmu, hkey⟩ := hconn hn (by simp [hpc, ClientPc.job])
    obtain rfl : (msg_id, c.sock) = key₀ := by simpa [State.failing, hn, hpc] using hkey
    exact absurd hfail (hwait.not_fails hmu hkey s.engine.deadlines)
  | disconnectPush n c closing key t hn hpc hnext hfail =>
    obtain ⟨hmu, hkey⟩ := hconn hn (by simp [hpc, ClientPc.job])
    obtain rfl : key = key₀ := by simpa [State.failing, hn, hpc, hnext] using hkey
    exact absurd hfail (hwait.not_fails hmu hkey s.engine.deadlines)
  | disconnectDone n c closing hn hpc hnext =>
    obtain ⟨-, hkey⟩ := hconn hn (by simp [hpc, ClientPc.job])
    simp [State.failing, hn, hpc, hnext] at hkey
  | pop m main_queue hpc | drop m hpc | route m target todo hpc
  | sendWritten m target todo n hpc | sendGone m target todo hpc =>
    rw [hdispatcher] at hpc
    cases hpc
  | wake now hpc =>
    refine ⟨rfl, rfl, rfl, rfl, fun _ _ => rfl, fun hn => ?_, fun _ => ⟨rfl, rfl⟩, [], by simp⟩
    obtain rfl : holder = .scanner := Option.some.inj (hmu.symm.trans hn)
    simp [Holder.action, State.failing, hpc] at hkey₀
  | scanDone now hpc hnone =>
    obtain ⟨-, hkey⟩ := hscan (by simp [hpc, ScannerPc.job])
    cases hdeadlines : s.engine.deadlines with
    | nil => simp [State.failing, hpc, hdeadlines] at hkey
    | cons d rest =>
      have hlater : now < d.1 := hnone d (by simp [hdeadlines])
      simp [State.failing, hpc, hdeadlines, not_le.mpr hlater] at hkey
  | scanSkip now deadline key rest hpc hhead hnow hentry =>
    obtain ⟨-, hkey⟩ := hscan (by simp [hpc, ScannerPc.job])
    simp only [State.failing, hpc, hhead] at hkey
    split_ifs at hkey with hdue
    obtain ⟨-, entry, hlookup, hle⟩ := hdue
    exact absurd (hentry entry hlookup) (not_lt.mpr hle)
  | scanPush now deadline key rest entry t hpc hhead hnow hentry hdue hfail =>
    obtain ⟨hmu, hkey⟩ := hscan (by simp [hpc, ScannerPc.job])
    obtain rfl : key = key₀ := by
      simpa [State.failing, hpc, hhead, hnow, hentry, hdue] using hkey
    exact absurd hfail (hwait.not_fails hmu hkey rest)
  | logPop m dlq hpc hpop =>
    exact ⟨rfl, rfl, rfl, rfl, fun _ _ => rfl, fun _ => rfl,
      fun hpush => by simp [hpc, LoggerPc.push] at hpush, [], by simp⟩
  | audit m sys hpc hsys =>
    exact ⟨rfl, rfl, rfl, rfl, fun _ _ => rfl, fun _ => rfl,
      fun hpush => by simp [hpc, LoggerPc.push] at hpush, _, rfl, by simp [Event.isIntake]⟩
  | auditAppend sys hpc =>
    exact ⟨rfl, rfl, rfl, rfl, fun _ _ => rfl, fun _ => rfl,
      fun hpush => by simp [hpc, LoggerPc.push] at hpush, [], by simp⟩

/-- Once the dispatcher waits for the holder of `mu_`, and this one for the dispatcher, they do so
for good: whatever the threads and the clients do from then on, nothing is pushed on `main_queue` or
popped, no delivery is tracked, acknowledged, or failed, and nothing is recorded but what comes
in. -/
theorem circular_wait_is_forever {file : Bytes} {order : List Message}
    (hstart : State.start cfg file order = some s)
    (hrun : Run (State.step cfg) (fun _ _ => True) s as t) (hwait : t.CircularWait cfg)
    (hlater : Run (State.step cfg) (fun _ _ => True) t bs u) :
    u.CircularWait cfg ∧ u.main_queue = t.main_queue ∧ u.engine = t.engine ∧
      u.dispatcher = t.dispatcher ∧
      ∃ new, u.trace = t.trace ++ new ∧ ∀ e ∈ new, e.isIntake = true := by
  have howned : Owned t :=
    hrun.invariant (fun _ _ _ hs _ h => hs.step h) (reserved_of_start hstart).owned
  have hstill : Owned u ∧ Standstill t u := by
    induction hlater with
    | nil => exact ⟨howned, .refl t⟩
    | snoc _ _ h ih =>
      obtain ⟨hs, hstill⟩ := ih
      exact ⟨hs.step h, hstill.trans (standstill_of_step hs (hstill.circularWait hwait) h)⟩
  obtain ⟨-, hstill⟩ := hstill
  exact ⟨hstill.circularWait hwait, hstill.main_queue, hstill.engine, hstill.dispatcher,
    hstill.trace⟩

/-- In the run that ends in a circular wait, another client publishes a message and a heartbeat is
answered. -/
theorem circular_wait_is_forever_fullQueue :
    ∃ t u, exec (State.step ⟨1, 3, 5000⟩) (State.init ⟨1, 3, 5000⟩) fullQueue = some t ∧
      exec (State.step ⟨1, 3, 5000⟩) t
        [.accept 7, .frame 2 0x01 0 [0, 1, 0x74], .client 2, .wake 9000, .frame 1 0x05 0 []] =
          some u ∧
      u.CircularWait ⟨1, 3, 5000⟩ ∧ u.main_queue = t.main_queue ∧ u.dispatcher = t.dispatcher := by
  obtain ⟨t, ht, hend⟩ := (Option.any_eq_true _ _).mp
    (show (exec (State.step ⟨1, 3, 5000⟩) (State.init ⟨1, 3, 5000⟩) fullQueue).any (fun t =>
        t.dispatcher = .tracking ⟨2, [0x74], [], 0, 1⟩ ⟨[0x74], ascii "__unique_5", 5⟩ [] ∧
        t.nextPush ⟨1, 3, 5000⟩ = some (.requeue ⟨1, [0x74], [], 1, 0⟩) ∧
        (t.main_queue.push ⟨1, [0x74], [], 1, 0⟩).isNone ∧
        (exec (State.step ⟨1, 3, 5000⟩) t [.accept 7, .frame 2 0x01 0 [0, 1, 0x74], .client 2,
          .wake 9000, .frame 1 0x05 0 []]).isSome) = true
      by decide)
  obtain ⟨hdispatcher, hpush, hfull, hmore⟩ := of_decide_eq_true hend
  obtain ⟨u, hu⟩ := Option.isSome_iff_exists.mp hmore
  have hwait : t.CircularWait ⟨1, 3, 5000⟩ :=
    ⟨⟨_, _, _, hdispatcher⟩, .inl ⟨_, hpush, Option.isNone_iff_eq_none.mp hfull⟩⟩
  obtain ⟨hwait', hmain, -, hdispatcher', -⟩ := circular_wait_is_forever (State.start_nil _)
    (run_of_exec ht) hwait (run_of_exec hu)
  exact ⟨t, u, ht, hu, hwait', hmain, hdispatcher'⟩

end EventQueue.Broker
