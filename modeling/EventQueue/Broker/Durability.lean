import EventQueue.Broker.Log

/-!
# Durability across restarts

A history of the broker is a sequence of sessions on one log file (`Sessions`): each starts on the
file that the one before left, replays it, runs, and ends with every record flushed. The log is
never compacted and `replay` keys everything by identifier, over all sessions, while `next_id`
starts at 1 in each of them. So what a session accepts is safe as long as a message is logged under
an identifier that is not in use (`unusedId`): no record of the log has it, and no thread is
acknowledging it.

`Durable` is what one session keeps of one message, whether it was logged in this session or in an
earlier one: it is the last under its identifier, and an acknowledgement of it, in the log or on its
way there, comes from an ACK frame. `sessions_durable` composes the sessions.

Without the condition a message of the second session is lost in the third: it gets the identifier
of one that was acknowledged in the first (`acknowledged`, then `unacknowledged`).
-/

namespace EventQueue.Broker

open Transition

variable {cfg : Config} {s t : State} {a : Action} {as : List Action} {m : Message}

/-- A message is logged under an identifier that no record of the log has and that no thread is
acknowledging. -/
def State.unusedId (s : State) (a : Action) : Bool :=
  s.freshId a &&
    match s.logging a with
    | none => true
    | some m => s.conns.all fun c => c.pc.acking ≠ some m.msg_id

/-- Identifiers are logged when they are not in use, and the audit records fit. -/
def logsUnused (s : State) (a : Action) : Bool := s.unusedId a && s.auditFits a

/-- The log ends its identifier's messages with this one, and an acknowledgement of it, in the log
or under way, has the cause `answered`. -/
structure Durable (s : State) (m : Message) (answered : Prop) : Prop where
  /-- The message is the last under its identifier. -/
  last : (publishedAs m.msg_id s.wal.log).getLast? = some (m.topic, m.body)
  /-- An ACK record has the cause. -/
  logged : .ack m.msg_id ∈ s.wal.log → answered
  /-- So has a thread that is about to write one. -/
  acking : ∀ (k : ℕ) (c : Conn), s.conns[k]? = some c → c.pc.acking = some m.msg_id → answered

/-- A step keeps a message durable; an ACK frame is the cause of what it leads to. -/
theorem Durable.step {P Q : Prop} (hs : Durable s m P) (hok : s.freshId a = true)
    (h : s.step cfg a = some t) (himp : P → Q)
    (hnew : ∀ id, t.trace = s.trace ++ [.acked id m.msg_id] → Q) : Durable t m Q where
  last := getLast?_step hok h hs.last
  logged hack := by
    refine himp ?_
    -- An ACK record that is new comes from a thread that was about to write it.
    cases step_logs h with
    | nothing hnone hrecords => exact hs.logged (log_same h hrecords ▸ hack)
    | message m' hm' hrecords =>
      rw [log_append h hrecords] at hack
      exact hs.logged (by simpa [WalRecord.ofMessage] using hack)
    | ack k c msg_id hk hpc hnone hrecords =>
      rw [log_append h hrecords] at hack
      have hack : .ack m.msg_id ∈ s.wal.log ∨ m.msg_id = msg_id := by simpa using hack
      rcases hack with hack | rfl
      · exact hs.logged hack
      · exact hs.acking k c hk (by simp [hpc, ClientPc.acking])
  acking k c hk hc := by
    -- A thread that is about to write one has got an ACK frame.
    cases step_came h hk with
    | same hk => exact himp (hs.acking k c hk hc)
    | elsewhere _ hacking => simp [hc] at hacking
    | ack msg_id type payload ha htype c₀ hk hsock hpc htrace =>
      obtain rfl : msg_id = m.msg_id := by simpa [hpc, ClientPc.acking] using hc
      exact hnew _ htrace
    | ackEngine msg_id c₀ ha hk hpc₀ hsock hpc =>
      obtain rfl : msg_id = m.msg_id := by simpa [hpc, ClientPc.acking] using hc
      exact himp (hs.acking k c₀ hk (by simp [hpc₀, ClientPc.acking]))
    | publish m' hpc | append m' c₀ ha hk hpc₀ hpc => simp [hpc, ClientPc.acking] at hc

/-- A message that is logged under an unused identifier is durable, and not acknowledged yet. -/
theorem durable_of_logging (hok : s.unusedId a = true) (h : s.step cfg a = some t)
    (hm : s.logging a = some m) (answered : Prop) : Durable t m answered := by
  obtain ⟨hfresh, hacking⟩ : s.freshId a = true ∧ ∀ c ∈ s.conns, c.pc.acking ≠ some m.msg_id := by
    simpa [State.unusedId, hm] using hok
  refine ⟨?_, fun hack => ?_, fun k c hk hc => ?_⟩
  · rw [log_of_logging h hm]
    exact getLast?_publishedAs_ofMessage m _
  · rw [log_of_logging h hm] at hack
    refine absurd ?_ (ack_not_mem (fresh_of_freshId hfresh hm))
    simpa [WalRecord.ofMessage] using hack
  · cases step_came h hk with
    | same hk => exact absurd hc (hacking c (List.mem_of_getElem? hk))
    | elsewhere _ hacking => simp [hc] at hacking
    | ack msg_id type payload ha => simp [ha, State.logging] at hm
    | ackEngine msg_id c₀ ha hk hpc₀ hsock hpc =>
      refine absurd ?_ (hacking c₀ (List.mem_of_getElem? hk))
      simpa [hpc, hpc₀, ClientPc.acking] using hc
    | publish m' hpc | append m' c₀ ha hk hpc₀ hpc => simp [hpc, ClientPc.acking] at hc

/-! ## One session -/

/-- What a session keeps of the messages that it accepts. -/
structure Accounted (rs₀ : List WalRecord) (s : State) : Prop where
  /-- The log reads back. -/
  readable : s.wal.Readable rs₀
  /-- The messages that are about to be logged fit. -/
  fits : PublishFits s
  /-- A message that was accepted is about to be logged, or is durable: its acknowledgement comes
  from an ACK frame after it. -/
  published : ∀ n m, .published n m ∈ s.trace →
    (∃ c, s.conns[n]? = some c ∧ c.pc = .publishAppend m) ∨
      Durable s m (∃ id, [.published n m, .acked id m.msg_id].Sublist s.trace)

/-- A step under an unused identifier keeps the accepted messages accounted for. -/
theorem Accounted.step {rs₀ : List WalRecord} (hs : Accounted rs₀ s) (hok : logsUnused s a = true)
    (h : s.step cfg a = some t) : Accounted rs₀ t := by
  obtain ⟨hunused, hfits⟩ : s.unusedId a = true ∧ s.auditFits a = true := by
    simpa [logsUnused] using hok
  have hfresh : s.freshId a = true := (Bool.and_eq_true_iff.mp hunused).1
  have hextends : s.trace <+: t.trace := (step_move h).trace_extends
  refine ⟨readable_step hs.readable hs.fits hfits h, hs.fits.step h, fun n m hm => ?_⟩
  rcases step_published h hm with hm | ⟨-, hconn⟩
  · rcases hs.published n m hm with ⟨c, hn, hpc⟩ | hdurable
    · by_cases ha : a = .client n
      · have hlogging : s.logging a = some m := by simp [ha, State.logging, hn, hpc]
        exact .inr (durable_of_logging hunused h hlogging _)
      · exact .inl ⟨c, step_conns_of_ne h hn (by simp [hpc]) ha, hpc⟩
    · refine .inr (hdurable.step hfresh h (Exists.imp fun _ hid => hid.trans hextends.sublist) ?_)
      intro id htrace
      rw [htrace]
      exact ⟨id, (List.singleton_sublist.mpr hm).append (List.Sublist.refl [_])⟩
  · exact .inl hconn

/-- A session on a log of whole records has accepted nothing yet. -/
theorem accounted_of_start {rs₀ : List WalRecord} {order : List Message}
    (hfits : ∀ r ∈ rs₀, r.Fits)
    (h : State.start cfg (walCodec.encodeAll rs₀) order = some s) : Accounted rs₀ s := by
  obtain ⟨hwal, hconns, -⟩ := wal_of_start h
  have htrace : s.trace = (State.replayed order).map .enqueued :=
    congrArg Flow.trace (flow_of_start h)
  refine ⟨⟨by simp [hwal, WalWriter.create], hfits, by simp [hwal, WalWriter.create]⟩, ?_, ?_⟩
  · simp [PublishFits, hconns]
  · simp [htrace]

/-- A message of an earlier session that no ACK frame of this one names is durable through it. -/
theorem durable_of_run {rs₀ : List WalRecord} {order : List Message} (hfits : ∀ r ∈ rs₀, r.Fits)
    (hstart : State.start cfg (walCodec.encodeAll rs₀) order = some s)
    (hrun : Run (State.step cfg) (logsUnused · ·) s as t)
    (hlast : (publishedAs m.msg_id rs₀).getLast? = some (m.topic, m.body))
    (hack : .ack m.msg_id ∉ rs₀) : Durable t m (∃ id, .acked id m.msg_id ∈ t.trace) := by
  obtain ⟨hwal, hconns, -⟩ := wal_of_start hstart
  have hlog : s.wal.log = rs₀ := by
    simp [hwal, WalWriter.log, WalWriter.create, walCodec.run_encodeAll hfits]
  refine hrun.invariant (I := fun s => Durable s m (∃ id, .acked id m.msg_id ∈ s.trace)) ?_ ?_
  · intro s a t hs hok h
    have hfresh : s.freshId a = true :=
      (Bool.and_eq_true_iff.mp (Bool.and_eq_true_iff.mp hok).1).1
    refine hs.step hfresh h (Exists.imp fun _ hid => (step_move h).trace_extends.subset hid) ?_
    intro id htrace
    exact ⟨id, by simp [htrace]⟩
  · exact ⟨hlog ▸ hlast, fun h => absurd (hlog ▸ h) hack, by simp [hconns]⟩

/-! ## Sessions -/

/-- The sessions of a broker on one log file, from an empty one: the file that they leave, and the
state in which each of them ended. -/
inductive Sessions (cfg : Config) (ok : State → Action → Prop) : Bytes → List State → Prop
  /-- No session yet. -/
  | nil : Sessions cfg ok [] []
  /-- One more session, which ends with every record flushed. -/
  | snoc {file : Bytes} {ends : List State} {order : List Message} {s t : State}
      {as : List Action} : Sessions cfg ok file ends → State.start cfg file order = some s →
      Run (State.step cfg) ok s as t → t.wal.AllFlushed →
      Sessions cfg ok t.wal.file (ends ++ [t])

/-- The session that ended in `t` accepted the message of a PUBLISH frame, and received no ACK frame
for it after that. -/
structure State.Unanswered (t : State) (n : ℕ) (m : Message) : Prop where
  /-- The frame was accepted. -/
  published : .published n m ∈ t.trace
  /-- Its handler is past `wal.append`. -/
  appended : ∀ c, t.conns[n]? = some c → c.pc ≠ .publishAppend m
  /-- No ACK frame followed. -/
  unacked : ∀ id, ¬[.published n m, .acked id m.msg_id].Sublist t.trace

/-- What the sessions accepted and no client has acknowledged is in the file. -/
theorem sessions_durable {file : Bytes} {ends : List State}
    (h : Sessions cfg (logsUnused · ·) file ends) :
    ∃ rs, file = walCodec.encodeAll rs ∧ (∀ r ∈ rs, r.Fits) ∧
      ∀ before t after n m, ends = before ++ t :: after → t.Unanswered n m →
        (∀ u ∈ after, ∀ id, .acked id m.msg_id ∉ u.trace) →
        (publishedAs m.msg_id rs).getLast? = some (m.topic, m.body) ∧ .ack m.msg_id ∉ rs := by
  induction h with
  | nil => exact ⟨[], rfl, by simp, by simp⟩
  | @snoc file ends order s t as _ hstart hrun hflushed ih =>
    obtain ⟨rs, rfl, hfits, hkept⟩ := ih
    have hacc : Accounted rs t :=
      hrun.invariant (fun s a t hs hok h => hs.step hok h) (accounted_of_start hfits hstart)
    refine ⟨t.wal.log, hacc.readable.file_eq hflushed, hacc.readable.fits_log, ?_⟩
    intro before u after n m heq hu hlater
    rcases List.eq_nil_or_concat after with rfl | ⟨after, v, rfl⟩
    · -- the message was accepted in the last session
      obtain ⟨-, rfl⟩ : ends = before ∧ t = u := by simpa using heq
      rcases hacc.published n m hu.published with ⟨c, hn, hpc⟩ | hdurable
      · exact absurd hpc (hu.appended c hn)
      · exact ⟨hdurable.last, fun hack => (hdurable.logged hack).elim hu.unacked⟩
    · -- it was accepted earlier
      have heq : ends ++ [t] = (before ++ u :: after) ++ [v] := by simpa using heq
      obtain ⟨hends, hv⟩ := List.append_inj' heq rfl
      obtain rfl : t = v := by simpa using hv
      obtain ⟨hlast, hack⟩ := hkept before u after n m hends hu fun w hw => hlater w (by simp [hw])
      have hdurable := durable_of_run hfits hstart hrun hlast hack
      refine ⟨hdurable.last, fun hack => ?_⟩
      obtain ⟨id, hid⟩ := hdurable.logged hack
      exact hlater t (by simp) id hid

/-- What was accepted in some session, and not acknowledged since, is pushed by the replay of the
next one: in every history in which messages are logged under identifiers that are not in use. -/
theorem durability {file : Bytes} {before after : List State} {n : ℕ}
    (h : Sessions cfg (logsUnused · ·) file (before ++ t :: after)) (ht : t.Unanswered n m)
    (hlater : ∀ u ∈ after, ∀ id, .acked id m.msg_id ∉ u.trace) :
    ⟨m.msg_id, m.topic, m.body, 0, 0⟩ ∈ replayMessages file ∧
      ∀ order, order.Perm (replayMessages file) → order.length ≤ cfg.queue_cap →
        ∃ s, State.start cfg file order = some s ∧ ∃ m' ∈ s.main_queue.queue,
          m'.msg_id = m.msg_id ∧ m'.topic = m.topic ∧ m'.body = m.body := by
  obtain ⟨rs, rfl, hfits, hkept⟩ := sessions_durable h
  obtain ⟨hlast, hack⟩ := hkept before t after n m rfl ht hlater
  -- The records decide: the last message under the identifier, and no acknowledgement.
  have hmem : ⟨m.msg_id, m.topic, m.body, 0, 0⟩ ∈ replayMessages (walCodec.encodeAll rs) := by
    rw [replayMessages, walCodec.run_encodeAll hfits, mem_pending_recover]
    exact ⟨hack, hlast, rfl, rfl⟩
  refine ⟨hmem, fun order hperm hlen => ?_⟩
  obtain ⟨i, hi⟩ := List.mem_iff_getElem?.mp (hperm.symm.subset hmem)
  refine ⟨_, by rw [State.start, dif_pos ⟨hperm, hlen⟩], ⟨m.msg_id, m.topic, m.body, 0, i⟩, ?_, rfl,
    rfl, rfl⟩
  refine List.mem_map.mpr ⟨(⟨m.msg_id, m.topic, m.body, 0, 0⟩, i), ?_, rfl⟩
  exact List.mk_mem_zipIdx_iff_getElem?.mpr hi

/-- A session in which one message is published, and the log is closed. -/
def unacknowledged : List Action :=
  [.accept 6, .frame 0 0x01 0 [0, 1, 0x74], .client 0, .client 0, .stopWal, .flush, .flush]

/-- A session in which a message is delivered and refused, and the log is closed. -/
def refused : List Action :=
  [.accept 5, .frame 0 0x02 0 [0, 1, 0x74, 0, 0], .pop,
    .route [⟨[0x74], ascii "__unique_5", 5⟩], .track 0, .send, .frame 0 0x04 1 [], .client 0,
    .client 0, .stopWal, .flush, .flush]

/-- A session that accepts one message, and a second in which it is refused: a third replays it. -/
theorem durability_refused :
    ∃ t₁ t₂, Sessions ⟨4, 3, 5000⟩ (logsUnused · ·) t₂.wal.file [t₁, t₂] ∧
      t₁.Unanswered 0 ⟨1, [0x74], [], 0, 0⟩ ∧ (∀ id, .acked id 1 ∉ t₂.trace) ∧
      ⟨1, [0x74], [], 0, 0⟩ ∈ replayMessages t₂.wal.file := by
  obtain ⟨t₁, ht₁, hend₁⟩ := (Option.any_eq_true _ _).mp
    (show ((State.start ⟨4, 3, 5000⟩ [] []).bind fun s =>
      execChecked (State.step ⟨4, 3, 5000⟩) (logsUnused · ·) s unacknowledged).any (fun t =>
        t.wal.AllFlushed ∧ t.wal.file = walCodec.encodeAll [.publish 1 [0x74] []] ∧
        t.trace = [.published 0 ⟨1, [0x74], [], 0, 0⟩, .enqueued ⟨1, [0x74], [], 0, 0⟩] ∧
        t.conns = [⟨6, .reading⟩]) = true
      by decide)
  obtain ⟨hflushed₁, hfile₁, htrace₁, hconns₁⟩ := of_decide_eq_true hend₁
  obtain ⟨s₁, hs₁, ht₁⟩ := Option.bind_eq_some_iff.mp ht₁
  obtain ⟨t₂, ht₂, hend₂⟩ := (Option.any_eq_true _ _).mp
    (show ((State.start ⟨4, 3, 5000⟩ (walCodec.encodeAll [.publish 1 [0x74] []])
      [⟨1, [0x74], [], 0, 0⟩]).bind fun s =>
      execChecked (State.step ⟨4, 3, 5000⟩) (logsUnused · ·) s refused).any (fun t =>
        t.wal.AllFlushed ∧ t.trace.all fun e => match e with
          | .acked .. => false
          | _ => true) = true
      by decide)
  obtain ⟨hflushed₂, hevents⟩ := of_decide_eq_true hend₂
  obtain ⟨s₂, hs₂, ht₂⟩ := Option.bind_eq_some_iff.mp ht₂
  have hfirst := Sessions.snoc .nil hs₁ (run_of_execChecked ht₁) hflushed₁
  have hsessions : Sessions ⟨4, 3, 5000⟩ (logsUnused · ·) t₂.wal.file ([] ++ t₁ :: [t₂]) :=
    Sessions.snoc hfirst (hfile₁ ▸ hs₂) (run_of_execChecked ht₂) hflushed₂
  have hunanswered : t₁.Unanswered 0 ⟨1, [0x74], [], 0, 0⟩ := by
    refine ⟨by simp [htrace₁], fun c hc => ?_, fun id => by simp [htrace₁]⟩
    obtain rfl : ⟨6, .reading⟩ = c := by simpa [hconns₁] using hc
    simp
  have hlater : ∀ id, .acked id 1 ∉ t₂.trace := fun id hid =>
    absurd (List.all_eq_true.mp hevents _ hid) (by simp)
  exact ⟨t₁, t₂, hsessions, hunanswered, hlater,
    (durability hsessions hunanswered (by simpa using hlater)).1⟩

/-- A session in which one message is published, delivered, and acknowledged, and the log is
closed. -/
def acknowledged : List Action :=
  [.accept 5, .accept 6, .frame 0 0x02 0 [0, 1, 0x74, 0, 0], .frame 1 0x01 0 [0, 1, 0x74],
    .client 1, .client 1, .pop, .route [⟨[0x74], ascii "__unique_5", 5⟩], .track 0, .send,
    .frame 0 0x03 1 [], .client 0, .client 0, .stopWal, .flush, .flush]

/-- The message of the second session has the identifier that was acknowledged in the first, and the
third session does not replay it. -/
theorem acknowledged_id_reused :
    ∃ t₁ t₂, Sessions ⟨4, 3, 5000⟩ (fun _ _ => True) t₂.wal.file [t₁, t₂] ∧
      t₂.Unanswered 0 ⟨1, [0x74], [], 0, 0⟩ ∧
      ⟨1, [0x74], [], 0, 0⟩ ∉ replayMessages t₂.wal.file := by
  obtain ⟨t₁, ht₁, hend₁⟩ := (Option.any_eq_true _ _).mp
    (show ((State.start ⟨4, 3, 5000⟩ [] []).bind fun s =>
      exec (State.step ⟨4, 3, 5000⟩) s acknowledged).any (fun t => t.wal.AllFlushed ∧
        t.wal.file = walCodec.encodeAll [.publish 1 [0x74] [], .ack 1]) = true
      by decide)
  obtain ⟨hflushed₁, hfile₁⟩ := of_decide_eq_true hend₁
  obtain ⟨s₁, hs₁, ht₁⟩ := Option.bind_eq_some_iff.mp ht₁
  -- `next_id` starts from one again, and the identifier is acknowledged in the log.
  obtain ⟨t₂, ht₂, hend₂⟩ := (Option.any_eq_true _ _).mp
    (show ((State.start ⟨4, 3, 5000⟩ (walCodec.encodeAll [.publish 1 [0x74] [], .ack 1]) []).bind
      fun s => exec (State.step ⟨4, 3, 5000⟩) s unacknowledged).any (fun t => t.wal.AllFlushed ∧
        t.trace = [.published 0 ⟨1, [0x74], [], 0, 0⟩, .enqueued ⟨1, [0x74], [], 0, 0⟩] ∧
        t.conns = [⟨6, .reading⟩] ∧ replayMessages t.wal.file = []) = true
      by decide)
  obtain ⟨hflushed₂, htrace, hconns, hreplay⟩ := of_decide_eq_true hend₂
  obtain ⟨s₂, hs₂, ht₂⟩ := Option.bind_eq_some_iff.mp ht₂
  refine ⟨t₁, t₂, ?_, ⟨by simp [htrace], ?_, ?_⟩, by simp [hreplay]⟩
  · have hfirst := Sessions.snoc .nil hs₁ (run_of_exec ht₁) hflushed₁
    exact Sessions.snoc hfirst (hfile₁ ▸ hs₂) (run_of_exec ht₂) hflushed₂
  · intro c hc
    obtain rfl : ⟨6, .reading⟩ = c := by simpa [hconns] using hc
    simp
  · intro id
    rw [htrace]
    simp

end EventQueue.Broker
