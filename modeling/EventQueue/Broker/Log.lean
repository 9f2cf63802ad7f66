import EventQueue.Broker.Flow

/-!
# The log along a run

What a step adds to the log: a PUBLISH record when a thread logs its message, an ACK record when a
thread logs its acknowledgement, nothing otherwise. A log whose records all fit their length fields,
once flushed, reads back record by record, so what `replay` would push is a question about the list
of records alone.

`freshId` is the condition under which the records of a log keep apart: a message is logged under an
identifier that the log does not hold yet.
-/

namespace EventQueue.Broker

variable {cfg : Config} {s t : State} {a : Action}

/-- The identifier that a record is about. -/
def WalRecord.msg_id : WalRecord → UInt64
  | .publish msg_id _ _ => msg_id
  | .ack msg_id => msg_id

namespace State

/-- The message that an action would log. -/
def logging (s : State) : Action → Option Message
  | .client n => s.conns[n]?.bind fun c =>
      match c.pc with
      | .publishAppend m => some m
      | _ => none
  | .log =>
    match s.logger with
    | .auditAppend m => some m
    | _ => none
  | _ => none

/-- A message is logged under an identifier that no record of the log has. -/
def freshId (s : State) (a : Action) : Bool :=
  match s.logging a with
  | none => true
  | some m => s.wal.log.all fun r => r.msg_id ≠ m.msg_id

/-- The record of an audit event fits its length fields. -/
def auditFits (s : State) (a : Action) : Bool :=
  match a, s.logger with
  | .log, .auditAppend sys => (WalRecord.ofMessage sys).Fits
  | _, _ => true

end State

/-- What a step does to the log. -/
inductive Logs (s : State) (a : Action) (t : State) : Prop
  /-- Nothing is added. -/
  | nothing (hnone : s.logging a = none) (hrecords : t.wal.records = s.wal.records)
  /-- A message is added. -/
  | message (m : Message) (hm : s.logging a = some m)
      (hrecords : t.wal.records = s.wal.records ++ [.ofMessage m])
  /-- An acknowledgement is added. -/
  | ack (k : ℕ) (c : Conn) (msg_id : UInt64) (hk : s.conns[k]? = some c)
      (hpc : c.pc = .ackWal msg_id) (hnone : s.logging a = none)
      (hrecords : t.wal.records = s.wal.records ++ [.ack msg_id])

/-- Failing a delivery leaves the log alone. -/
theorem Fails.wal_eq {key : DeliveryKey} (h : Fails cfg s key t) : t.wal = s.wal := by
  cases h <;> rfl

/-- Every step does one of these. -/
theorem step_logs (h : s.step cfg a = some t) : Logs s a t := by
  cases step_sound h with
  | publishAppend n c m hn hpc => exact .message m (by simp [State.logging, hn, hpc]) rfl
  | auditAppend sys hpc => exact .message sys (by simp [State.logging, hpc]) rfl
  | ackWal n c msg_id hn hpc =>
    exact .ack n c msg_id hn hpc (by simp [State.logging, hn, hpc]) rfl
  | flush wal hwal => exact .nothing rfl (WalWriter.flushStep_records hwal)
  | nackPush n c msg_id u hn hpc hfail =>
    exact .nothing (by simp [State.logging, hn, hpc]) (congrArg WalWriter.records hfail.wal_eq)
  | disconnectPush n c closing key t hn hpc hkey hfail =>
    exact .nothing (by simp [State.logging, hn, hpc]) (congrArg WalWriter.records hfail.wal_eq)
  | scanPush now deadline key rest entry t hpc hhead hnow hentry hdue hfail =>
    exact .nothing rfl (congrArg WalWriter.records hfail.wal_eq)
  | publishPush n c m main_queue hn hpc | ackEngine n c msg_id hn hpc
  | nackNone n c msg_id hn hpc | nackLock n c msg_id entry hn hpc | eraseClient n c hn hpc
  | unsubscribe n c closing hn hpc | disconnectLock n c closing hn hpc
  | disconnectDone n c closing hn hpc => exact .nothing (by simp [State.logging, hn, hpc]) rfl
  | logPop m dlq hpc | republish m main_queue hpc | audit m sys hpc
  | auditPush sys main_queue hpc => exact .nothing (by simp [State.logging, hpc]) rfl
  | _ => exact .nothing rfl rfl

/-- A step keeps what the log was opened with. -/
theorem step_opened (h : s.step cfg a = some t) : t.wal.opened = s.wal.opened := by
  cases step_sound h with
  | flush wal hwal => exact WalWriter.flushStep_opened hwal
  | nackPush n c msg_id u hn hpc hfail => exact congrArg WalWriter.opened hfail.wal_eq
  | disconnectPush n c closing key t hn hpc hkey hfail =>
    exact congrArg WalWriter.opened hfail.wal_eq
  | scanPush now deadline key rest entry t hpc hhead hnow hentry hdue hfail =>
    exact congrArg WalWriter.opened hfail.wal_eq
  | _ => rfl

/-! ## The records of the log -/

variable {rs : List WalRecord} {msg_id : UInt64}

/-- An acknowledgement publishes nothing. -/
theorem publishedAs_ack (msg_id id : UInt64) (rs : List WalRecord) :
    publishedAs msg_id (rs ++ [.ack id]) = publishedAs msg_id rs := by
  simp [publishedAs]

/-- A message that is logged is the last under its identifier. -/
theorem getLast?_publishedAs_ofMessage (m : Message) (rs : List WalRecord) :
    (publishedAs m.msg_id (rs ++ [.ofMessage m])).getLast? = some (m.topic, m.body) := by
  simp [publishedAs, WalRecord.ofMessage]

/-- A message that is logged does not touch the others. -/
theorem publishedAs_ofMessage_of_ne {m : Message} (h : m.msg_id ≠ msg_id) (rs : List WalRecord) :
    publishedAs msg_id (rs ++ [.ofMessage m]) = publishedAs msg_id rs := by
  simp [publishedAs, WalRecord.ofMessage, h]

/-- Nothing was published under a fresh identifier. -/
theorem publishedAs_eq_nil (h : ∀ r ∈ rs, r.msg_id ≠ msg_id) : publishedAs msg_id rs = [] := by
  refine List.filterMap_eq_nil_iff.mpr fun r hr => ?_
  cases r with
  | publish id topic body => simpa [WalRecord.msg_id] using h _ hr
  | ack id => rfl

/-- A fresh identifier was not acknowledged. -/
theorem ack_not_mem (h : ∀ r ∈ rs, r.msg_id ≠ msg_id) : .ack msg_id ∉ rs := fun hmem =>
  h _ hmem rfl

/-- The guard, as a fact about the log. -/
theorem fresh_of_freshId {m : Message} (hok : s.freshId a = true) (hm : s.logging a = some m) :
    ∀ r ∈ s.wal.log, r.msg_id ≠ m.msg_id := by
  simpa [State.freshId, hm, List.all_eq_true] using hok

/-- A log that was opened whole, and whose records fit. -/
structure WalWriter.Readable (rs₀ : List WalRecord) (w : WalWriter) : Prop where
  /-- The file was opened with whole records. -/
  opened : w.opened = walCodec.encodeAll rs₀
  /-- They fit. -/
  fits₀ : ∀ r ∈ rs₀, r.Fits
  /-- So do those that were added. -/
  fits : ∀ r ∈ w.records, r.Fits

namespace WalWriter.Readable

variable {rs₀ : List WalRecord} {w : WalWriter}

/-- The log is what it was opened with and what was added. -/
theorem log_eq (h : w.Readable rs₀) : w.log = rs₀ ++ w.records := by
  rw [log, h.opened, walCodec.run_encodeAll h.fits₀]

/-- Every record of the log fits. -/
theorem fits_log (h : w.Readable rs₀) : ∀ r ∈ w.log, r.Fits := by
  rw [h.log_eq]
  simpa [or_imp, forall_and] using ⟨h.fits₀, h.fits⟩

/-- A log that is flushed is its records. -/
theorem file_eq (h : w.Readable rs₀) (hflushed : w.AllFlushed) :
    w.file = walCodec.encodeAll w.log := by
  rw [hflushed, h.opened, h.log_eq, walCodec.encodeAll_append]

/-- A message that was published last under its identifier, and not acknowledged, is replayed. -/
theorem mem_replayMessages (h : w.Readable rs₀) (hflushed : w.AllFlushed) {topic body : Bytes}
    (hlast : (publishedAs msg_id w.log).getLast? = some (topic, body))
    (hack : .ack msg_id ∉ w.log) :
    ⟨msg_id, topic, body, 0, 0⟩ ∈ replayMessages w.file := by
  rw [replayMessages, h.file_eq hflushed, walCodec.run_encodeAll h.fits_log, mem_pending_recover]
  exact ⟨hack, hlast, rfl, rfl⟩

end WalWriter.Readable

/-- The records that a step adds come at the end of the log. -/
theorem log_append (h : s.step cfg a = some t) (hrecords : t.wal.records = s.wal.records ++ rs) :
    t.wal.log = s.wal.log ++ rs := by
  rw [WalWriter.log, WalWriter.log, step_opened h, hrecords, List.append_assoc]

/-- A step that adds no record leaves the log as it was. -/
theorem log_same (h : s.step cfg a = some t) (hrecords : t.wal.records = s.wal.records) :
    t.wal.log = s.wal.log := by
  rw [WalWriter.log, WalWriter.log, step_opened h, hrecords]

/-- A message that a step logs comes at the end of the log. -/
theorem log_of_logging {m : Message} (h : s.step cfg a = some t) (hm : s.logging a = some m) :
    t.wal.log = s.wal.log ++ [.ofMessage m] := by
  cases step_logs h with
  | message m' hm' hrecords =>
    obtain rfl := Option.some.inj (hm.symm.trans hm')
    exact log_append h hrecords
  | nothing hnone hrecords | ack k c id hk hpc hnone hrecords => simp [hm] at hnone

/-- A message is logged under an identifier that is new, so the others stay as they are. -/
theorem publishedAs_step (hok : s.freshId a = true) (h : s.step cfg a = some t) {msg_id : UInt64}
    (hne : publishedAs msg_id s.wal.log ≠ []) :
    publishedAs msg_id t.wal.log = publishedAs msg_id s.wal.log := by
  cases step_logs h with
  | nothing hnone hrecords => rw [log_same h hrecords]
  | message m hm hrecords =>
    rw [log_append h hrecords]
    refine publishedAs_ofMessage_of_ne (fun heq => hne ?_) _
    exact publishedAs_eq_nil (heq ▸ fresh_of_freshId hok hm)
  | ack k c id hk hpc hnone hrecords => rw [log_append h hrecords, publishedAs_ack]

theorem publishedAs_ne_nil {msg_id : UInt64} {log : List WalRecord} {p : Bytes × Bytes}
    (h : (publishedAs msg_id log).getLast? = some p) : publishedAs msg_id log ≠ [] := by
  rintro hnil
  simp [hnil] at h

/-- What is logged stays logged. -/
theorem getLast?_step (hok : s.freshId a = true) (h : s.step cfg a = some t) {msg_id : UInt64}
    {p : Bytes × Bytes} (hlast : (publishedAs msg_id s.wal.log).getLast? = some p) :
    (publishedAs msg_id t.wal.log).getLast? = some p := by
  rw [publishedAs_step hok h (publishedAs_ne_nil hlast), hlast]

/-- A thread is about to log a PUBLISH frame's message, which fits. -/
def PublishFits (s : State) : Prop :=
  ∀ (k : ℕ) (c : Conn) (m : Message), s.conns[k]? = some c → c.pc = .publishAppend m →
    (WalRecord.ofMessage m).Fits

theorem PublishFits.step (hs : PublishFits s) (h : s.step cfg a = some t) : PublishFits t := by
  intro k c m hk hpc
  cases step_came h hk with
  | same hk => exact hs k c m hk hpc
  | publish m' hpc' hm' hfits =>
    obtain rfl : m = m' := by simpa [hpc] using hpc'
    exact hfits
  | elsewhere hmessage => simp [hpc, ClientPc.message] at hmessage
  | append m' c₀ ha hk hpc₀ hpc' | ack msg_id type payload ha htype c₀ hk hsock hpc'
  | ackEngine msg_id c₀ ha hk hpc₀ hsock hpc' => simp [hpc] at hpc'

/-- The message that a step logs fits. -/
theorem fits_of_logging (hs : PublishFits s) (hok : s.auditFits a = true) {m : Message}
    (hm : s.logging a = some m) : (WalRecord.ofMessage m).Fits := by
  cases a with
  | client n =>
    obtain ⟨c, hc, hm⟩ := Option.bind_eq_some_iff.mp hm
    cases hpc : c.pc with
    | publishAppend m' =>
      obtain rfl : m' = m := by simpa [hpc] using hm
      exact hs n c m' hc hpc
    | _ => simp [hpc] at hm
  | log =>
    cases hpc : s.logger with
    | auditAppend sys =>
      obtain rfl : sys = m := by simpa [State.logging, hpc] using hm
      simpa [State.auditFits, hpc] using hok
    | _ => simp [State.logging, hpc] at hm
  | _ => simp [State.logging] at hm

/-- A step whose records fit keeps the log readable. -/
theorem readable_step {rs₀ : List WalRecord} (hw : s.wal.Readable rs₀)
    (hs : PublishFits s) (hok : s.auditFits a = true) (h : s.step cfg a = some t) :
    t.wal.Readable rs₀ := by
  refine ⟨(step_opened h).trans hw.opened, hw.fits₀, ?_⟩
  cases step_logs h with
  | nothing hnone hrecords => exact hrecords ▸ hw.fits
  | message m hm hrecords =>
    rw [hrecords]
    simpa [or_imp, forall_and] using ⟨hw.fits, fits_of_logging hs hok hm⟩
  | ack k c msg_id hk hpc hnone hrecords =>
    rw [hrecords]
    simpa [or_imp, forall_and, WalRecord.Fits] using hw.fits

end EventQueue.Broker
