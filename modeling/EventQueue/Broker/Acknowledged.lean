import EventQueue.Broker.Startup

/-!
# Acknowledged for good

The log is only ever appended to, and a replay looks at all of it. So an ACK record that can be read
at one start can be read at every later one, whatever comes between: sessions that end or are
killed, writes that are cut off, torn records and what is written behind them, and more messages
under the same identifier. `acknowledged_for_good` says exactly what comes back at a later start of
a message that is in the log: it is pushed again until there is an ACK record of its identifier that
can be read, and from then on nothing is ever pushed again under it.
-/

namespace EventQueue.Broker

open Transition (Run exec run_of_exec)

variable {cfg : Config} {s t : State} {a : Action} {as : List Action} {file now : Bytes}
  {order : List Message} {msg_id : UInt64}

/-- The files that later sessions leave of a file. A session ends, or is killed, in any state, and
its last write may be cut off after any number of bytes; what it started on is not lost. -/
inductive Later (cfg : Config) (file : Bytes) : Bytes → Prop
  /-- No session yet. -/
  | same : Later cfg file file
  /-- One more session. -/
  | session {now : Bytes} {order : List Message} {s t : State} {as : List Action} (n : ℕ)
      (hlater : Later cfg file now) (hstart : State.start cfg now order = some s)
      (hexec : exec (State.step cfg) s as = some t) (hn : now.length ≤ n) :
      Later cfg file (t.wal.file.take n)

/-! ## The file grows -/

/-- A step of the writer appends to the file. -/
theorem WalWriter.file_step {w w' : WalWriter} {b : WalWriter.Action} (h : w.step b = some w') :
    w.file <+: w'.file := by
  cases b with
  | add r =>
    obtain rfl := Option.some.inj h
    exact List.prefix_rfl
  | stop =>
    obtain rfl := Option.some.inj h
    exact List.prefix_rfl
  | flush =>
    obtain ⟨-, rfl⟩ | ⟨-, rfl⟩ | ⟨-, rfl⟩ | ⟨-, rfl⟩ | ⟨-, rfl⟩ | ⟨-, rfl⟩ := flushStep_cases h
    · exact List.prefix_rfl
    · exact List.prefix_rfl
    · exact List.prefix_rfl
    · exact List.prefix_append _ _
    · exact List.prefix_rfl
    · exact List.prefix_append _ _

/-- So does a step of the broker. -/
theorem file_step (h : s.step cfg a = some t) : s.wal.file <+: t.wal.file := by
  rcases step_wal h with hwal | ⟨b, hwal⟩
  · rw [hwal]
  · exact WalWriter.file_step hwal

/-- A session leaves what it started on. -/
theorem file_of_session (hstart : State.start cfg file order = some s)
    (hexec : exec (State.step cfg) s as = some t) : file <+: t.wal.file := by
  have hwal := (wal_of_start hstart).1
  have hfile : file <+: s.wal.file := by
    rw [hwal]
    exact List.prefix_rfl
  exact (run_of_exec hexec).invariant (I := fun u => file <+: u.wal.file)
    (fun _ _ _ hu _ h => hu.trans (file_step h)) hfile

/-- Sessions leave what the first of them started on. -/
theorem Later.isPrefix (h : Later cfg file now) : file <+: now := by
  induction h with
  | same => exact List.prefix_rfl
  | session n _ hstart hexec hn ih =>
    refine ih.trans (List.prefix_of_prefix_length_le (file_of_session hstart hexec)
      (List.take_prefix _ _) ?_)
    have hle := (file_of_session hstart hexec).length_le
    rw [List.length_take]
    omega

/-! ## What can be read -/

/-- The records that can be read of a file can be read of every longer one. -/
theorem records_isPrefix (h : file <+: now) :
    (walCodec.run file).1 <+: (walCodec.run now).1 := by
  obtain ⟨more, rfl⟩ := h
  rw [walCodec.run_append]
  exact List.prefix_append _ _

/-- The identifiers that a start pushes. -/
theorem mem_ids_of_start (hstart : State.start cfg file order = some s) :
    (∃ m ∈ order, m.msg_id = msg_id) ↔
      (∃ topic body, .publish msg_id topic body ∈ (walCodec.run file).1) ∧
        .ack msg_id ∉ (walCodec.run file).1 := by
  rw [← mem_ids_pending]
  have hperm : order.Perm (recover (walCodec.run file).1).pending := perm_of_start hstart
  simp only [hperm.mem_iff]

/-- At a start on whatever some sessions have left of a file, a message of the file is pushed again
exactly when there is still no ACK record of its identifier that can be read; and once it is not,
no start after any further sessions pushes anything under that identifier. -/
theorem acknowledged_for_good {topic body : Bytes}
    (hpublish : .publish msg_id topic body ∈ (walCodec.run file).1) (hlater : Later cfg file now)
    (hstart : State.start cfg now order = some s) :
    ((∃ m ∈ order, m.msg_id = msg_id) ↔ .ack msg_id ∉ (walCodec.run now).1) ∧
    ((∀ m ∈ order, m.msg_id ≠ msg_id) → ∀ after order' s', Later cfg now after →
      State.start cfg after order' = some s' → ∀ m ∈ order', m.msg_id ≠ msg_id) := by
  have hthere : ∃ topic body, .publish msg_id topic body ∈ (walCodec.run now).1 :=
    ⟨topic, body, (records_isPrefix hlater.isPrefix).subset hpublish⟩
  have hpushed : (∃ m ∈ order, m.msg_id = msg_id) ↔ .ack msg_id ∉ (walCodec.run now).1 := by
    rw [mem_ids_of_start hstart]
    exact and_iff_right hthere
  refine ⟨hpushed, fun hnone after order' s' hafter hstart' m hm heq => ?_⟩
  -- There is an ACK record, and it stays.
  have hack : .ack msg_id ∈ (walCodec.run now).1 := by
    by_contra hack
    obtain ⟨m', hm', heq'⟩ := hpushed.mpr hack
    exact hnone m' hm' heq'
  exact ((mem_ids_of_start hstart').mp ⟨m, hm, heq⟩).2
    ((records_isPrefix hafter.isPrefix).subset hack)

/-- A client publishes twice. The identifiers of a session start at 1, whatever the log holds. -/
def publishedAnew : List Action :=
  [.accept 5, .frame 0 0x01 0 [0, 1, 0x74], .client 0, .client 0, .frame 0 0x01 0 [0, 1, 0x75],
    .client 0, .client 0, .stopWal, .flush, .flush]

/-- A message was acknowledged. Then another one is published under its identifier, and the write of
one more is torn: at the next start nothing comes back under the identifier. -/
theorem acknowledged_for_good_publishedAnew :
    ∃ file after : Bytes, Later ⟨4, 3, 5000⟩ file after ∧
      (walCodec.run file).1 = [.publish 1 [0x74] [], .ack 1] ∧
      (walCodec.run after).1 = [.publish 1 [0x74] [], .ack 1, .publish 1 [0x74] []] ∧
      (walCodec.run after).2 ≠ [] ∧ (State.start ⟨4, 3, 5000⟩ after []).isSome = true ∧
      ∀ order s, State.start ⟨4, 3, 5000⟩ after order = some s → ∀ m ∈ order, m.msg_id ≠ 1 := by
  obtain ⟨file, hfile⟩ : ∃ file,
      file = walCodec.encodeAll [.publish 1 [0x74] [], .ack 1] := ⟨_, rfl⟩
  have hrun : walCodec.run file = ([.publish 1 [0x74] [], .ack 1], []) := by
    rw [hfile]
    decide
  have hsession : ((State.start ⟨4, 3, 5000⟩ file []).bind fun s =>
      (exec (State.step ⟨4, 3, 5000⟩) s publishedAnew)).any (fun t =>
        walCodec.run (t.wal.file.take (t.wal.file.length - 1)) =
          ([.publish 1 [0x74] [], .ack 1, .publish 1 [0x74] []],
            (walCodec.encodeAll [.publish 2 [0x75] []]).dropLast) ∧
        file.length ≤ t.wal.file.length - 1 ∧
        (State.start ⟨4, 3, 5000⟩ (t.wal.file.take (t.wal.file.length - 1)) []).isSome) = true := by
    rw [hfile]
    decide
  obtain ⟨t, ht, hend⟩ := (Option.any_eq_true _ _).mp hsession
  obtain ⟨s, hstart, hexec⟩ := Option.bind_eq_some_iff.mp ht
  obtain ⟨hafter, hlength, hstarts⟩ := of_decide_eq_true hend
  have hlater : Later ⟨4, 3, 5000⟩ file (t.wal.file.take (t.wal.file.length - 1)) :=
    .session _ .same hstart hexec hlength
  have hthere : .publish 1 [0x74] [] ∈ (walCodec.run file).1 := by
    rw [hrun]
    exact List.mem_cons_self
  refine ⟨file, _, hlater, by rw [hrun], by rw [hafter], ?_, hstarts, fun order s' hs' => ?_⟩
  · rw [hafter]
    decide
  · exact (acknowledged_for_good hthere .same hstart).2 (by simp) _ order s' hlater hs'

end EventQueue.Broker
