import EventQueue.Broker.CrashRecovery
import EventQueue.Broker.Ledger
import EventQueue.Broker.Replay

/-!
# Dead letters across a restart

`requeue_or_dlq` gives a message up in memory only: the delivery is erased and a copy under the
dead-letter topic goes to `dlq`, but nothing is logged. `replay` decides by the PUBLISH and ACK
records alone. So a message that was dead-lettered is pushed again by the next start, under its own
topic and with all its retries, unless a client has acknowledged its identifier; the dead letter has
the same identifier, so that an ACK of the dead letter counts.
-/

namespace EventQueue.Broker

open Transition (exec run_of_exec)

variable {cfg : Config} {s t : State} {a : Action} {as : List Action} {m : Message}
  {rs : List WalRecord} {msg_id : UInt64}

/-! ## The log of distinct identifiers -/

/-- The identifiers of the PUBLISH records, in order. -/
def publishIds (rs : List WalRecord) : List UInt64 :=
  rs.filterMap fun
    | .publish msg_id _ _ => some msg_id
    | .ack _ => none

theorem mem_publishIds :
    msg_id ∈ publishIds rs ↔ ∃ topic body, .publish msg_id topic body ∈ rs := by
  unfold publishIds
  rw [List.mem_filterMap]
  constructor
  · rintro ⟨r, hr, heq⟩
    cases r with
    | publish id topic body =>
      obtain rfl : id = msg_id := by simpa using heq
      exact ⟨topic, body, hr⟩
    | ack id => cases heq
  · rintro ⟨topic, body, hr⟩
    exact ⟨_, hr, rfl⟩

/-- A message that is logged under an identifier of its own is the last under it. -/
theorem getLast?_publishedAs_of_nodup {topic body : Bytes} (hids : (publishIds rs).Nodup)
    (hmem : .publish msg_id topic body ∈ rs) :
    (publishedAs msg_id rs).getLast? = some (topic, body) := by
  -- It is the only one.
  suffices hone : publishedAs msg_id rs = [(topic, body)] by rw [hone]; rfl
  induction rs with
  | nil => cases hmem
  | cons r rs ih =>
    cases r with
    | ack id =>
      have hmem : .publish msg_id topic body ∈ rs := by simpa using hmem
      exact ih hids hmem
    | publish id topic' body' =>
      obtain ⟨hnew, hids⟩ : id ∉ publishIds rs ∧ (publishIds rs).Nodup := List.nodup_cons.mp hids
      rcases List.mem_cons.mp hmem with heq | hmem
      · obtain ⟨rfl, rfl, rfl⟩ := WalRecord.publish.inj heq
        have hnone : publishedAs msg_id rs = [] := by
          by_contra hne
          exact hnew (mem_publishIds.mpr (publishedAs_ne_nil_iff.mp hne))
        simpa [publishedAs] using hnone
      · have hne : id ≠ msg_id := by
          rintro rfl
          exact hnew (mem_publishIds.mpr ⟨topic, body, hmem⟩)
        have hrest := ih hids hmem
        simpa [publishedAs, hne] using hrest

/-! ## What is logged, and what is acknowledged -/

/-- What a session that started on an empty log keeps: a message is logged before it is queued, and
an acknowledgement is logged for an ACK frame and for no other reason. -/
structure Journaled (s : State) : Prop where
  /-- The log was empty. -/
  opened : s.wal.opened = []
  /-- A message that is about to be queued is logged. -/
  queueing : ∀ m ∈ s.queueing, .ofMessage m ∈ s.wal.records
  /-- So is a message that was queued. -/
  enqueued : ∀ m, .enqueued m ∈ s.trace → .ofMessage m ∈ s.wal.records
  /-- A thread that acknowledges has got an ACK frame. -/
  acking : ∀ c ∈ s.conns, ∀ msg_id, c.pc.acking = some msg_id → ∃ id, .acked id msg_id ∈ s.trace
  /-- An ACK record comes from an ACK frame. -/
  acked : ∀ msg_id, .ack msg_id ∈ s.wal.records → ∃ id, .acked id msg_id ∈ s.trace
  /-- An ACK frame has led to a record, or its thread is on the way. -/
  answered : ∀ id msg_id, .acked id msg_id ∈ s.trace →
    .ack msg_id ∈ s.wal.records ∨ ∃ (k : ℕ) (c : Conn), s.conns[k]? = some c ∧
      c.pc.acking = some msg_id

/-- The records stay. -/
theorem records_subset (h : s.step cfg a = some t) : s.wal.records ⊆ t.wal.records := by
  cases step_logs h with
  | nothing hnone hrecords => exact hrecords ▸ List.Subset.refl _
  | message m hm hrecords => exact hrecords ▸ List.subset_append_left _ _
  | ack k c msg_id hk hpc hnone hrecords => exact hrecords ▸ List.subset_append_left _ _

/-- A message that a step logs is in the log afterwards. -/
theorem mem_records_of_logging (h : s.step cfg a = some t) (hm : s.logging a = some m) :
    .ofMessage m ∈ t.wal.records := by
  cases step_logs h with
  | nothing hnone hrecords => simp [hnone] at hm
  | message m' hm' hrecords =>
    obtain rfl := Option.some.inj (hm.symm.trans hm')
    simp [hrecords]
  | ack k c msg_id hk hpc hnone hrecords => simp [hnone] at hm

/-- The thread that acknowledges stays on its way until the record is written. -/
theorem step_answering (h : s.step cfg a = some t) {k : ℕ} {c : Conn}
    (hk : s.conns[k]? = some c) (hc : c.pc.acking = some msg_id) :
    .ack msg_id ∈ t.wal.records ∨ ∃ (k : ℕ) (c : Conn), t.conns[k]? = some c ∧
      c.pc.acking = some msg_id := by
  -- The thread of the connection goes on, or another one does.
  by_cases ha : a = .client k
  · subst ha
    cases step_sound h with
    | ackEngine n c₀ id hn hpc =>
      obtain rfl := Option.some.inj (hn.symm.trans hk)
      obtain rfl : id = msg_id := by simpa [hpc, ClientPc.acking] using hc
      exact .inr ⟨k, _, getElem?_goTo_self _ hn, rfl⟩
    | ackWal n c₀ id hn hpc =>
      obtain rfl := Option.some.inj (hn.symm.trans hk)
      obtain rfl : id = msg_id := by simpa [hpc, ClientPc.acking] using hc
      exact .inl (by simp [WalWriter.add])
    | publishAppend n c₀ m₀ hn hpc | publishPush n c₀ m₀ main_queue hn hpc
    | nackNone n c₀ id hn hpc | nackLock n c₀ id entry hn hpc | nackPush n c₀ id u hn hpc
    | eraseClient n c₀ hn hpc | unsubscribe n c₀ closing hn hpc
    | disconnectLock n c₀ closing hn hpc | disconnectPush n c₀ closing key t hn hpc
    | disconnectDone n c₀ closing hn hpc =>
      obtain rfl := Option.some.inj (hn.symm.trans hk)
      simp [hpc, ClientPc.acking] at hc
  · have hpc : c.pc ≠ .reading := fun hpc => by simp [hpc, ClientPc.acking] at hc
    exact .inr ⟨k, c, step_conns_of_ne h hk hpc ha, hc⟩

/-- An ACK frame that a step records is in the hands of a thread afterwards. -/
theorem step_acked (h : s.step cfg a = some t) {id : ClientId} (hid : .acked id msg_id ∈ t.trace) :
    .acked id msg_id ∈ s.trace ∨ ∃ (k : ℕ) (c : Conn), t.conns[k]? = some c ∧
      c.pc.acking = some msg_id := by
  have hfail : ∀ {u v : State} {key : DeliveryKey}, Fails cfg u key v →
      .acked id msg_id ∈ v.trace → .acked id msg_id ∈ u.trace := by
    intro u v key hfail hm
    cases hfail <;> simpa using hm
  cases step_sound h with
  | ack n c type msg_id' payload hn hpc htype =>
    rcases List.mem_append.mp hid with hid | hid
    · exact .inl hid
    · obtain ⟨rfl, rfl⟩ : id = c.sock ∧ msg_id = msg_id' := by simpa using hid
      exact .inr ⟨n, _, getElem?_goTo_self _ hn, rfl⟩
  | nackPush n c msg_id' u hn hpc hfails =>
    have hold := hfail hfails hid
    exact .inl hold
  | disconnectPush n c closing key t hn hpc hkey hfails => exact .inl (hfail hfails hid)
  | scanPush now deadline key rest entry t hpc hhead hnow hentry hdue hfails =>
    have hold := hfail hfails hid
    exact .inl hold
  | publish | heartbeat | publishPush | drop | route | track | sendWritten | republish | audit
  | auditPush => exact .inl (by simpa using hid)
  | _ => exact .inl hid

/-- A step keeps the log and the history in agreement. -/
theorem Journaled.step (hs : Journaled s) (h : s.step cfg a = some t) : Journaled t where
  opened := (step_opened h).trans hs.opened
  queueing m hm := by
    rcases step_queueing h hm with hm | hm
    · -- A message that was on its way to a queue is logged; one that gets there now is logged now.
      exact records_subset h (hs.queueing m hm)
    · exact mem_records_of_logging h hm
  enqueued m hm := by
    rcases (step_move h).enqueued_cases hm with hm | hm
    · exact records_subset h (hs.enqueued m hm)
    · exact records_subset h (hs.queueing m (queueing_of_offered hm))
  acking c hc msg_id hacking := by
    have hextends : s.trace <+: t.trace := (step_move h).trace_extends
    obtain ⟨k, hk⟩ := List.mem_iff_getElem?.mp hc
    -- A thread acknowledges because it did so before, or has just got the frame.
    cases step_came h hk with
    | same hk =>
      obtain ⟨id, hid⟩ := hs.acking c (List.mem_of_getElem? hk) msg_id hacking
      exact ⟨id, hextends.subset hid⟩
    | elsewhere _ hnone => simp [hacking] at hnone
    | ack id type payload ha htype c₀ hk hsock hpc htrace =>
      obtain rfl : id = msg_id := by simpa [hpc, ClientPc.acking] using hacking
      exact ⟨c.sock, by simp [htrace]⟩
    | ackEngine id c₀ ha hk hpc₀ hsock hpc =>
      obtain rfl : id = msg_id := by simpa [hpc, ClientPc.acking] using hacking
      obtain ⟨id', hid⟩ :=
        hs.acking c₀ (List.mem_of_getElem? hk) id (by simp [hpc₀, ClientPc.acking])
      exact ⟨id', hextends.subset hid⟩
    | publish m' hpc | append m' c₀ ha hk hpc₀ hpc => simp [hpc, ClientPc.acking] at hacking
  acked msg_id hmem := by
    have hextends : s.trace <+: t.trace := (step_move h).trace_extends
    have hold : (∃ id, .acked id msg_id ∈ s.trace) → ∃ id, .acked id msg_id ∈ t.trace :=
      Exists.imp fun _ hid => hextends.subset hid
    cases step_logs h with
    | nothing hnone hrecords => exact hold (hs.acked msg_id (hrecords ▸ hmem))
    | message m hm hrecords =>
      rw [hrecords] at hmem
      exact hold (hs.acked msg_id (by simpa [WalRecord.ofMessage] using hmem))
    | ack k c id hk hpc hnone hrecords =>
      rw [hrecords] at hmem
      have hmem : .ack msg_id ∈ s.wal.records ∨ msg_id = id := by simpa using hmem
      rcases hmem with hmem | rfl
      · -- A record that was there, or the one that is written now.
        exact hold (hs.acked msg_id hmem)
      · exact hold (hs.acking c (List.mem_of_getElem? hk) msg_id (by simp [hpc, ClientPc.acking]))
  answered id msg_id hid := by
    rcases step_acked h hid with hid | hnew
    · rcases hs.answered id msg_id hid with hmem | ⟨k, c, hk, hc⟩
      · exact .inl (records_subset h hmem)
      · exact step_answering h hk hc
    · exact .inr hnew

/-- A session on an empty log starts so. -/
theorem journaled_init : Journaled (State.init cfg) := by
  constructor <;> simp [State.init, WalWriter.create, State.queueing, LoggerPc.queueing]

/-! ## Dead letters -/

/-- The message was queued and dead-lettered, and no copy of it is left under its topic. -/
structure State.DeadLettered (t : State) (m : Message) : Prop where
  /-- It was queued. -/
  enqueued : .enqueued m ∈ t.trace
  /-- It was pushed on `dlq`. -/
  dead : .deadLettered ⟨m.msg_id, dlqPrefix ++ m.topic, m.body, 0, m.origin⟩ ∈ t.trace
  /-- No copy is in `main_queue`. -/
  main_queue : ∀ c ∈ t.main_queue.queue, ¬(c.msg_id = m.msg_id ∧ c.topic = m.topic)
  /-- No copy is in `in_flight_`. -/
  in_flight : ∀ e ∈ t.engine.in_flight.entries,
    ¬(e.2.msg.msg_id = m.msg_id ∧ e.2.msg.topic = m.topic)

instance (t : State) (m : Message) : Decidable (t.DeadLettered m) :=
  decidable_of_iff
    (.enqueued m ∈ t.trace ∧
      .deadLettered ⟨m.msg_id, dlqPrefix ++ m.topic, m.body, 0, m.origin⟩ ∈ t.trace ∧
      (∀ c ∈ t.main_queue.queue, ¬(c.msg_id = m.msg_id ∧ c.topic = m.topic)) ∧
      ∀ e ∈ t.engine.in_flight.entries, ¬(e.2.msg.msg_id = m.msg_id ∧ e.2.msg.topic = m.topic))
    ⟨fun ⟨h₁, h₂, h₃, h₄⟩ => ⟨h₁, h₂, h₃, h₄⟩, fun ⟨h₁, h₂, h₃, h₄⟩ => ⟨h₁, h₂, h₃, h₄⟩⟩

/-- The next start pushes the message under its topic, with all its retries. -/
def State.revives (t : State) (m : Message) : Bool :=
  (replayMessages t.wal.file).any fun m' =>
    m'.msg_id = m.msg_id ∧ m'.topic = m.topic ∧ m'.retry_count = 0

/-- After every session from an empty log, with distinct identifiers and records that fit, whose log
was flushed at the end: a message that was dead-lettered stays dead exactly when an acknowledgement
of its identifier was logged. When no thread is still on its way to log one, that is when a client
sent an ACK frame with the identifier. -/
theorem dead_letter_stays_dead_iff (hexec : exec (State.step cfg) (State.init cfg) as = some t)
    (hids : (publishIds t.wal.records).Nodup) (hfits : ∀ r ∈ t.wal.records, r.Fits)
    (hflushed : t.wal.AllFlushed) (hdead : t.DeadLettered m) :
    (t.revives m = false ↔ .ack m.msg_id ∈ t.wal.records) ∧
      ((∀ c ∈ t.conns, c.pc.acking = none) →
        (.ack m.msg_id ∈ t.wal.records ↔ ∃ id, .acked id m.msg_id ∈ t.trace)) := by
  have hjournal : Journaled t :=
    (run_of_exec hexec).invariant (fun _ _ _ hs _ h => hs.step h) journaled_init
  have hreadable : t.wal.Readable [] := ⟨hjournal.opened, by simp, hfits⟩
  have hlog : t.wal.log = t.wal.records := by simpa using hreadable.log_eq
  refine ⟨⟨fun hstays => ?_, fun hack => ?_⟩, fun hidle => ⟨hjournal.acked m.msg_id, ?_⟩⟩
  · -- without the record, the message is the last under its identifier and is replayed
    by_contra hnone
    have hlast := getLast?_publishedAs_of_nodup hids (hjournal.enqueued m hdead.enqueued)
    rw [← hlog] at hlast hnone
    have hmem := hreadable.mem_replayMessages hflushed hlast hnone
    have hrevives : t.revives m = true := List.any_eq_true.mpr ⟨_, hmem, by simp⟩
    rw [hrevives] at hstays
    cases hstays
  · -- A message with a record of an acknowledgement is not pending.
    refine Bool.eq_false_iff.mpr fun hrevives => ?_
    obtain ⟨m', hm', hsame⟩ := List.any_eq_true.mp hrevives
    have hsame := of_decide_eq_true hsame
    rw [replayMessages, hreadable.file_eq hflushed, walCodec.run_encodeAll hreadable.fits_log]
      at hm'
    have hnone := (mem_pending_recover.mp hm').1
    rw [hsame.1, hlog] at hnone
    exact hnone hack
  · rintro ⟨id, hid⟩
    -- A thread that is still on its way to the log is ruled out.
    rcases hjournal.answered id m.msg_id hid with hmem | ⟨k, c, hk, hc⟩
    · exact hmem
    · simp [hidle c (List.mem_of_getElem? hk)] at hc

/-- A client subscribes to everything, publishes, and refuses what it gets, which is dead-lettered
at once. -/
def deadLetter : List Action :=
  [.accept 5, .frame 0 0x02 0 [0, 1, 0x2A, 0, 0], .frame 0 0x01 0 [0, 1, 0x74], .client 0,
    .client 0,
    .pop, .route [⟨[0x2A], ascii "__unique_5", 5⟩], .track 0, .send, .frame 0 0x04 1 [], .client 0,
    .client 0]

/-- The dead letter goes to the client as well, which acknowledges it. -/
def acknowledgeLetter : List Action :=
  [.log, .log, .pop, .route [⟨[0x2A], ascii "__unique_5", 5⟩], .track 0, .send, .frame 0 0x03 1 [],
    .client 0, .client 0]

/-- The message is not pushed again when the dead letter was acknowledged. -/
theorem dead_letter_stays_dead_acknowledged :
    ∃ t, exec (State.step ⟨4, 0, 5000⟩) (State.init ⟨4, 0, 5000⟩)
        (deadLetter ++ acknowledgeLetter ++ [.stopWal, .flush, .flush]) = some t ∧
      t.DeadLettered ⟨1, [0x74], [], 0, 0⟩ ∧ t.revives ⟨1, [0x74], [], 0, 0⟩ = false := by
  have hend : (exec (State.step ⟨4, 0, 5000⟩) (State.init ⟨4, 0, 5000⟩)
      (deadLetter ++ acknowledgeLetter ++ [.stopWal, .flush, .flush])).any (fun t =>
        (publishIds t.wal.records).Nodup ∧ (∀ r ∈ t.wal.records, r.Fits) ∧ t.wal.AllFlushed ∧
          t.DeadLettered ⟨1, [0x74], [], 0, 0⟩ ∧ .ack 1 ∈ t.wal.records) := by decide
  obtain ⟨t, ht, hend⟩ := (Option.any_eq_true _ _).mp hend
  obtain ⟨hids, hfits, hflushed, hdead, hack⟩ := of_decide_eq_true hend
  exact ⟨t, ht, hdead, (dead_letter_stays_dead_iff ht hids hfits hflushed hdead).1.mpr hack⟩

/-- The message is pushed again when nobody acknowledged it, though its only delivery was
dead-lettered and the broker was shut down in order. -/
theorem dead_letter_revived :
    ∃ t, exec (State.step ⟨4, 0, 5000⟩) (State.init ⟨4, 0, 5000⟩)
        (deadLetter ++ [.stopWal, .flush, .flush]) = some t ∧
      (publishIds t.wal.records).Nodup ∧ t.wal.flush_pc = .exited ∧ t.wal.AllFlushed ∧
      t.DeadLettered ⟨1, [0x74], [], 0, 0⟩ ∧ t.revives ⟨1, [0x74], [], 0, 0⟩ = true := by
  have hend : (exec (State.step ⟨4, 0, 5000⟩) (State.init ⟨4, 0, 5000⟩)
      (deadLetter ++ [.stopWal, .flush, .flush])).any (fun t =>
        (publishIds t.wal.records).Nodup ∧ t.wal.flush_pc = .exited ∧ t.wal.AllFlushed ∧
          t.DeadLettered ⟨1, [0x74], [], 0, 0⟩ ∧ t.revives ⟨1, [0x74], [], 0, 0⟩ = true) := by
    decide
  obtain ⟨t, ht, hend⟩ := (Option.any_eq_true _ _).mp hend
  exact ⟨t, ht, of_decide_eq_true hend⟩

end EventQueue.Broker
