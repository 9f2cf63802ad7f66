import EventQueue.Broker.Log
import EventQueue.Broker.Replay

/-!
# Starting on a log

`main` replays the log into `main_queue` before it starts the dispatcher, so a push that finds the
queue full waits for a thread that will never come. `replay` pushes one message for each identifier
that is pending in the log: published and not acknowledged. What the live queue holds does not bound
that number. A message that is dropped for want of a subscriber, dead-lettered, or in flight is out
of the queue and stays pending in the log.

`startup_never_blocks` is about all histories of a broker on one file, whose sessions may end or be
killed at any point, with the last write cut off anywhere: as long as a message is logged only when
the log then has at most as many pending identifiers as the queue has places, every start completes.
-/

namespace EventQueue.Broker

open Transition (Run exec execChecked run_of_execChecked)

/-! ## Identifiers that are pending in a log -/

/-- How many messages `replay` would push for the records of a log. -/
def pendingCount (rs : List WalRecord) : ℕ := (recover rs).pending.length

variable {rs : List WalRecord}

/-- An acknowledgement leaves no more pending identifiers than there were. -/
theorem pendingCount_ack_le (rs : List WalRecord) (msg_id : UInt64) :
    pendingCount (rs ++ [.ack msg_id]) ≤ pendingCount rs := by
  -- The identifiers that are pending afterwards were pending before.
  have hsub : (recover (rs ++ [.ack msg_id])).pending.map Message.msg_id ⊆
      (recover rs).pending.map Message.msg_id := by
    intro id hid
    rw [List.mem_map, mem_ids_pending] at hid ⊢
    simpa using hid.imp (by simp) fun hack h => hack (List.mem_append_left _ h)
  have hle := (nodup_pending _).length_le_of_subset hsub
  simpa only [pendingCount, List.length_map] using hle

/-- The pushes of a replay complete, in whatever order they come, exactly when the queue has a place
for every identifier that is pending in the log. -/
theorem isSome_pushAll_replay {file : Bytes} {capacity : ℕ} {order : List Message}
    (horder : order.Perm (replayMessages file)) :
    ((SafeQueue.empty capacity).pushAll order).isSome = true ↔
      pendingCount (walCodec.run file).1 ≤ capacity := by
  rw [SafeQueue.isSome_pushAll, horder.length_eq]
  simp [SafeQueue.empty, pendingCount, replayMessages]

/-! ## What is in the file -/

namespace WalWriter

variable {w w' : WalWriter} {a : WalWriter.Action}

/-- What is written is part of what was added, at every moment. -/
def Written (w : WalWriter) : Prop := w.file <+: w.opened ++ walCodec.encodeAll w.records

/-- The flush thread ends with the final flush. -/
theorem final_of_exited (h : w.flushStep = some w') (hexited : w'.flush_pc = .exited) :
    w.flush_pc = .final := by
  unfold flushStep at h
  split at h <;> rename_i hpc
  · obtain rfl := Option.some.inj h
    dsimp only at hexited
    split_ifs at hexited
  · split_ifs at h <;> (obtain rfl := Option.some.inj h; cases hexited)
  · obtain rfl := Option.some.inj h; cases hexited
  · obtain rfl := Option.some.inj h; cases hexited
  · exact hpc
  · cases h

/-- Every action keeps it so. -/
theorem Written.step (hw : w.Written) (hbalanced : w.Balanced) (h : w.step a = some w') :
    w'.Written := by
  by_cases hexited : w'.flush_pc = .exited
  · cases a with
    | add r =>
      obtain rfl := Option.some.inj h
      refine hw.trans ?_
      show _ <+: w.opened ++ walCodec.encodeAll (w.records ++ [r])
      rw [walCodec.encodeAll_append, ← List.append_assoc]
      exact List.prefix_append _ _
    | stop =>
      obtain rfl := Option.some.inj h
      exact hw
    | flush =>
      -- The final flush has written the rest.
      have hflushed := hbalanced.allFlushed_final (final_of_exited h hexited) h
      rw [Written, hflushed]
  · exact ⟨w'.unwritten, (hbalanced.step h).file hexited⟩

end WalWriter

variable {cfg : Config} {s t : State} {a : Action} {as : List Action} {file : Bytes}
  {order : List Message}

/-- A step of the broker leaves the log alone, or makes one step on it. -/
theorem step_wal (h : s.step cfg a = some t) :
    t.wal = s.wal ∨ ∃ b, s.wal.step b = some t.wal := by
  cases step_sound h with
  | publishAppend n c m => exact .inr ⟨.add (.ofMessage m), rfl⟩
  | auditAppend sys => exact .inr ⟨.add (.ofMessage sys), rfl⟩
  | ackWal n c msg_id => exact .inr ⟨.add (.ack msg_id), rfl⟩
  | flush wal hwal => exact .inr ⟨.flush, hwal⟩
  | stopWal => exact .inr ⟨.stop, rfl⟩
  | nackPush n c msg_id u hn hpc hfail => exact .inl hfail.wal_eq
  | disconnectPush n c closing key t hn hpc hkey hfail => exact .inl hfail.wal_eq
  | scanPush now deadline key rest entry t hpc hhead hnow hentry hdue hfail =>
    exact .inl hfail.wal_eq
  | _ => exact .inl rfl

/-! ## Sessions -/

/-- A message is logged only when the queue has a place for every identifier that is then pending in
the log, and the audit records fit. -/
def logsWithRoom (cfg : Config) (s : State) (a : Action) : Bool :=
  s.auditFits a &&
    match s.logging a with
    | none => true
    | some m => pendingCount (s.wal.log ++ [.ofMessage m]) ≤ cfg.queue_cap

/-- The histories of a broker on one file, by the file that they leave. A session ends, or is
killed, in any state, and the last write may be cut off after any number of bytes. The next session
starts on what is left, if no record is torn at its end. -/
inductive History (cfg : Config) (ok : State → Action → Prop) : Bytes → Prop
  /-- No session yet. -/
  | empty : History cfg ok []
  /-- One more session. -/
  | session {file : Bytes} {order : List Message} {s t : State} {as : List Action} (n : ℕ)
      (hfile : History cfg ok file) (hwhole : (walCodec.run file).2 = [])
      (hstart : State.start cfg file order = some s) (hrun : Run (State.step cfg) ok s as t) :
      History cfg ok (t.wal.file.take n)

/-- The records of a log fit, and at every point of it the queue had a place for every identifier
that was pending. -/
structure Replayable (capacity : ℕ) (rs : List WalRecord) : Prop where
  /-- The records fit. -/
  fits : ∀ r ∈ rs, r.Fits
  /-- There were places. -/
  room : ∀ p, p <+: rs → pendingCount p ≤ capacity

/-- A part of such a log is one. -/
theorem Replayable.mono {capacity : ℕ} {p : List WalRecord} (h : Replayable capacity rs)
    (hp : p <+: rs) : Replayable capacity p :=
  ⟨fun r hr => h.fits r (hp.subset hr), fun q hq => h.room q (hq.trans hp)⟩

/-- One more record, with which there are still places. -/
theorem Replayable.concat {capacity : ℕ} {r : WalRecord} (h : Replayable capacity rs) (hr : r.Fits)
    (hroom : pendingCount (rs ++ [r]) ≤ capacity) : Replayable capacity (rs ++ [r]) := by
  constructor
  · simpa [or_imp, forall_and] using ⟨h.fits, hr⟩
  · intro p hp
    rcases List.prefix_concat_iff.mp hp with rfl | hp
    · exact hroom
    · exact h.room p hp

/-- What a session keeps of its log. -/
structure LoggedWithRoom (capacity : ℕ) (rs₀ : List WalRecord) (s : State) : Prop where
  /-- It was opened with whole records, and all records fit. -/
  readable : s.wal.Readable rs₀
  /-- The messages that are about to be logged fit. -/
  fits : PublishFits s
  /-- The buffers hold what is not written. -/
  balanced : s.wal.Balanced
  /-- The file is part of what was added. -/
  written : s.wal.Written
  /-- The log can be replayed, up to any record. -/
  replayable : Replayable capacity s.wal.log

/-- A step that logs with room keeps the log replayable. -/
theorem LoggedWithRoom.step {rs₀ : List WalRecord} (hs : LoggedWithRoom cfg.queue_cap rs₀ s)
    (hok : logsWithRoom cfg s a = true) (h : s.step cfg a = some t) :
    LoggedWithRoom cfg.queue_cap rs₀ t := by
  obtain ⟨hfits, hroom⟩ := Bool.and_eq_true_iff.mp hok
  have hwal : t.wal.Balanced ∧ t.wal.Written := by
    rcases step_wal h with heq | ⟨b, hb⟩
    · exact heq ▸ ⟨hs.balanced, hs.written⟩
    · exact ⟨hs.balanced.step hb, hs.written.step hs.balanced hb⟩
  refine ⟨readable_step hs.readable hs.fits hfits h, hs.fits.step h, hwal.1, hwal.2, ?_⟩
  -- What the step logs: nothing, a message, or an acknowledgement.
  cases step_logs h with
  | nothing hnone hrecords => exact log_same h hrecords ▸ hs.replayable
  | message m hm hrecords =>
    rw [log_append h hrecords]
    have hroom : pendingCount (s.wal.log ++ [.ofMessage m]) ≤ cfg.queue_cap := by
      simpa [hm] using hroom
    exact hs.replayable.concat (fits_of_logging hs.fits hfits hm) hroom
  | ack k c msg_id hk hpc hnone hrecords =>
    rw [log_append h hrecords]
    refine hs.replayable.concat trivial ?_
    calc pendingCount (s.wal.log ++ [WalRecord.ack msg_id])
        ≤ pendingCount s.wal.log := pendingCount_ack_le s.wal.log msg_id
      _ ≤ cfg.queue_cap := hs.replayable.room _ List.prefix_rfl

/-- A session starts with the log that it was given. -/
theorem loggedWithRoom_of_start {rs₀ : List WalRecord} (hrs : Replayable cfg.queue_cap rs₀)
    (h : State.start cfg (walCodec.encodeAll rs₀) order = some s) :
    LoggedWithRoom cfg.queue_cap rs₀ s := by
  obtain ⟨hwal, hconns, -⟩ := wal_of_start h
  have hreadable : s.wal.Readable rs₀ :=
    ⟨by simp [hwal, WalWriter.create], hrs.fits, by simp [hwal, WalWriter.create]⟩
  have hlog : s.wal.log = rs₀ := by
    rw [hreadable.log_eq, hwal]
    exact List.append_nil _
  refine ⟨hreadable, ?_, ?_, ?_, hlog ▸ hrs⟩
  · simp [PublishFits, hconns]
  · exact hwal ▸ WalWriter.balanced_create _
  · simp [WalWriter.Written, hwal, WalWriter.create]

/-- The records of a cut through a log, and when nothing is torn there. -/
theorem records_of_cut (hrs : ∀ r ∈ rs, r.Fits) (hfile : file <+: walCodec.encodeAll rs) :
    (walCodec.run file).1 <+: rs ∧
      ((walCodec.run file).2 = [] → file = walCodec.encodeAll (walCodec.run file).1) := by
  obtain ⟨torn, htake, hrun⟩ := walCodec.exists_run_take hrs file.length
  rw [← List.prefix_iff_eq_take.mp hfile] at htake hrun
  rw [hrun]
  refine ⟨walCodec.whole_isPrefix _ _, fun htorn => ?_⟩
  have htorn : torn = [] := htorn
  rwa [htorn, List.append_nil] at htake

/-- What a history of sessions that log with room leaves is part of a log that can be replayed. -/
theorem replayable_of_history (h : History cfg (logsWithRoom cfg · ·) file) :
    ∃ rs, Replayable cfg.queue_cap rs ∧ file <+: walCodec.encodeAll rs := by
  induction h with
  | empty => exact ⟨[], ⟨by simp, by simp [pendingCount, recover, Recovered.pending]⟩, by simp⟩
  | @session file order s t as n _ hwhole hstart hrun ih =>
    obtain ⟨rs, hrs, hfile⟩ := ih
    obtain ⟨hrecords, heq⟩ := records_of_cut hrs.fits hfile
    -- The log was whole, so the session has started on encoded records.
    rw [heq hwhole] at hstart
    have hlogged : LoggedWithRoom cfg.queue_cap _ t :=
      hrun.invariant (fun _ _ _ hs hok h => hs.step hok h)
        (loggedWithRoom_of_start (hrs.mono hrecords) hstart)
    refine ⟨t.wal.log, hlogged.replayable, (List.take_prefix _ _).trans ?_⟩
    rw [hlogged.readable.log_eq, walCodec.encodeAll_append, ← hlogged.readable.opened]
    exact hlogged.written

/-- After every history in which messages are logged with room, whatever the last session left in
the file and whatever the order of the pushes: the replay pushes all its messages without waiting,
and the broker starts. -/
theorem startup_never_blocks (h : History cfg (logsWithRoom cfg · ·) file)
    (horder : order.Perm (replayMessages file)) :
    ((SafeQueue.empty cfg.queue_cap).pushAll order).isSome = true ∧
      (State.start cfg file order).isSome = true := by
  obtain ⟨rs, hrs, hfile⟩ := replayable_of_history h
  have hroom : pendingCount (walCodec.run file).1 ≤ cfg.queue_cap :=
    hrs.room _ (records_of_cut hrs.fits hfile).1
  refine ⟨(isSome_pushAll_replay horder).mpr hroom, ?_⟩
  -- `main` goes on when the pushes are through.
  rw [State.start, dif_pos ⟨horder, horder.length_eq.trans_le hroom⟩]
  rfl

/-- A client publishes a message that nobody has subscribed to, and it is dropped. -/
def publishDropped : List Action :=
  [.frame 0 0x01 0 [0, 1, 0x74], .client 0, .client 0, .pop, .route []]

/-- The log is closed: the flush thread is told to stop, and writes what is left. -/
def closeLog : List Action := [.stopWal, .flush, .flush]

/-- One message is dropped, and the queue has one place: the next start completes. -/
theorem startup_never_blocks_publishDropped :
    ∃ t, execChecked (State.step ⟨1, 3, 5000⟩) (logsWithRoom ⟨1, 3, 5000⟩ · ·)
        (State.init ⟨1, 3, 5000⟩) (.accept 6 :: publishDropped ++ closeLog) = some t ∧
      (replayMessages t.wal.file).length = 1 ∧
      (State.start ⟨1, 3, 5000⟩ t.wal.file (replayMessages t.wal.file)).isSome = true := by
  have hend : (execChecked (State.step ⟨1, 3, 5000⟩) (logsWithRoom ⟨1, 3, 5000⟩ · ·)
      (State.init ⟨1, 3, 5000⟩) (.accept 6 :: publishDropped ++ closeLog)).any
      (fun t => (replayMessages t.wal.file).length = 1) := by decide
  obtain ⟨t, ht, hone⟩ := (Option.any_eq_true _ _).mp hend
  have hhistory : History ⟨1, 3, 5000⟩ (logsWithRoom ⟨1, 3, 5000⟩ · ·) t.wal.file := by
    have hsession := History.session t.wal.file.length .empty (by decide) (State.start_nil _)
      (run_of_execChecked ht)
    rwa [List.take_length] at hsession
  exact ⟨t, ht, of_decide_eq_true hone, (startup_never_blocks hhistory (List.Perm.refl _)).2⟩

/-- Two messages are dropped and the broker is shut down: the queue, of one place, was never full
for long, but the next start waits for ever. -/
theorem dropped_messages_block_startup :
    ∃ t, exec (State.step ⟨1, 3, 5000⟩) (State.init ⟨1, 3, 5000⟩)
        (.accept 6 :: publishDropped ++ publishDropped ++ closeLog) = some t ∧
      t.wal.flush_pc = .exited ∧ t.wal.AllFlushed ∧
      ∀ order, order.Perm (replayMessages t.wal.file) →
        (SafeQueue.empty 1).pushAll order = none ∧
        State.start ⟨1, 3, 5000⟩ t.wal.file order = none := by
  have hend : (exec (State.step ⟨1, 3, 5000⟩) (State.init ⟨1, 3, 5000⟩)
      (.accept 6 :: publishDropped ++ publishDropped ++ closeLog)).any (fun t =>
        t.wal.flush_pc = .exited ∧ t.wal.AllFlushed ∧
          pendingCount (walCodec.run t.wal.file).1 = 2) := by decide
  obtain ⟨t, ht, hend⟩ := (Option.any_eq_true _ _).mp hend
  obtain ⟨hexited, hflushed, htwo⟩ := of_decide_eq_true hend
  refine ⟨t, ht, hexited, hflushed, fun order horder => ⟨?_, ?_⟩⟩
  · -- The second push finds the queue full.
    refine Option.not_isSome_iff_eq_none.mp fun hsome => ?_
    have hle := (isSome_pushAll_replay horder).mp hsome
    rw [htwo] at hle
    exact absurd hle (by decide)
  · have hlength : order.length = 2 := horder.length_eq.trans htwo
    rw [State.start, dif_neg]
    rintro ⟨-, hle⟩
    rw [hlength] at hle
    exact absurd hle (by decide)

end EventQueue.Broker
