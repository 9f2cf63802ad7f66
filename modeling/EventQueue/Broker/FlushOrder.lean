import EventQueue.Broker.WalWriter
import EventQueue.Lib.Transition

/-!
# The two buffers of the log lose and reorder nothing

`append` and `acknowledge` add a record's bytes to one buffer under `mu_`, and the flush thread
writes the other one without it. Whatever the order of their steps, what is in the file, in
`flush_buf_` until it is written, and in `active_buf_` is one stream: that of the records in the
order in which their calls took the lock (`file_append_buffers`).

The final flush writes `active_buf_` and leaves it as it is, since the thread then ends. From there
on the file has the records of the calls that came before it, and the buffer still has the bytes of
the last of them, before those of later calls (`file_of_exited`).
-/

namespace EventQueue.Broker

open Transition

namespace WalWriter

/-- The records of the calls among some actions, in the order in which they took the lock. -/
def added (as : List Action) : List WalRecord :=
  as.filterMap fun
    | .add r => some r
    | .stop | .flush => none

/-- What `flush_buf_` holds that is not written yet. -/
def unwrittenFlush (w : WalWriter) : Bytes :=
  match w.flush_pc with
  | .write => w.flush_buf
  | _ => []

variable {w w' : WalWriter} {a : Action} {as : List Action} {file : Bytes}

@[simp] theorem added_concat_add (as : List Action) (r : WalRecord) :
    added (as ++ [.add r]) = added as ++ [r] := by
  simp [added]

@[simp] theorem added_concat_stop (as : List Action) : added (as ++ [.stop]) = added as := by
  simp [added]

@[simp] theorem added_concat_flush (as : List Action) : added (as ++ [.flush]) = added as := by
  simp [added]

/-- What is not written is what `flush_buf_` has left, and then `active_buf_`. -/
theorem unwritten_eq (w : WalWriter) : w.unwritten = w.unwrittenFlush ++ w.active_buf := by
  unfold unwritten unwrittenFlush
  cases w.flush_pc <;> rfl

/-- The ghosts of a writer: the file that it was opened on, and the records that were added. -/
theorem Run.opened_records (hrun : Run WalWriter.step (fun _ _ => True) (create file) as w) :
    w.opened = file ∧ w.records = added as := by
  induction hrun with
  | nil => exact ⟨rfl, rfl⟩
  | @snoc _ _ as a _ _ h ih =>
    obtain ⟨hopened, hrecords⟩ := ih
    cases a with
    | add r =>
      obtain rfl := Option.some.inj h
      exact ⟨hopened, by rw [added_concat_add, ← hrecords]; rfl⟩
    | stop =>
      obtain rfl := Option.some.inj h
      exact ⟨hopened, by rw [added_concat_stop, ← hrecords]; rfl⟩
    | flush =>
      exact ⟨(flushStep_opened h).trans hopened,
        by rw [added_concat_flush, ← hrecords]; exact flushStep_records h⟩

/-- No byte is lost or written twice, at any time. -/
theorem Run.balanced (hrun : Run WalWriter.step (fun _ _ => True) (create file) as w) :
    w.Balanced :=
  hrun.invariant (fun _ _ _ hs _ hstep => hs.step hstep) (balanced_create file)

/-- Before the final flush the file, what is left of `flush_buf_`, and `active_buf_` are the records
in the order of their calls. -/
theorem file_append_buffers (hrun : Run WalWriter.step (fun _ _ => True) (create file) as w)
    (hpc : w.flush_pc ≠ .exited) :
    w.file ++ w.unwrittenFlush ++ w.active_buf = file ++ walCodec.encodeAll (added as) := by
  obtain ⟨hopened, hrecords⟩ := Run.opened_records hrun
  calc w.file ++ w.unwrittenFlush ++ w.active_buf
      = w.file ++ w.unwritten := by rw [unwritten_eq, List.append_assoc]
    _ = w.opened ++ walCodec.encodeAll w.records := (Run.balanced hrun).file hpc
    _ = file ++ walCodec.encodeAll (added as) := by rw [hopened, hrecords]

/-- The flush thread leaves its loop only when the destructor has asked for it. -/
theorem Run.running_eq_false (hrun : Run WalWriter.step (fun _ _ => True) (create file) as w)
    (hpc : w.flush_pc = .final ∨ w.flush_pc = .exited) : w.running = false := by
  refine hrun.invariant (I := fun w => w.flush_pc = .final ∨ w.flush_pc = .exited →
    w.running = false) (fun s a t hs _ hstep => ?_) (by simp [create]) hpc
  cases a with
  | add r =>
    obtain rfl := Option.some.inj hstep
    exact hs
  | stop =>
    obtain rfl := Option.some.inj hstep
    exact fun _ => rfl
  | flush =>
    have hflush : s.flushStep = some t := hstep
    obtain ⟨-, rfl⟩ | ⟨-, rfl⟩ | ⟨-, rfl⟩ | ⟨-, rfl⟩ | ⟨-, rfl⟩ | ⟨hfinal, rfl⟩ :=
      flushStep_cases hflush
    · -- The test of the loop leads out of it only when `running_` is cleared.
      cases hrunning : s.running <;> simp
    all_goals simp
    exact hs (.inl hfinal)

/-- The only step into the end of the flush thread is the final flush. -/
theorem flush_pc_of_exited (hstep : w.step a = some w') (hpc : w'.flush_pc = .exited)
    (hne : w.flush_pc ≠ .exited) : a = .flush ∧ w.flush_pc = .final := by
  cases a with
  | add r =>
    obtain rfl := Option.some.inj hstep
    exact absurd hpc hne
  | stop =>
    obtain rfl := Option.some.inj hstep
    exact absurd hpc hne
  | flush =>
    have hflush : w.flushStep = some w' := hstep
    obtain ⟨-, rfl⟩ | ⟨-, rfl⟩ | ⟨-, rfl⟩ | ⟨-, rfl⟩ | ⟨-, rfl⟩ | ⟨hfinal, rfl⟩ :=
      flushStep_cases hflush
    · cases hrunning : w.running <;> simp [hrunning] at hpc
    · cases hpc
    · cases hpc
    · cases hpc
    · cases hpc
    · exact ⟨rfl, hfinal⟩

/-- Once the flush thread has ended, the file has the records of the calls before the final flush,
and `active_buf_` has what that flush wrote and then the records of the later calls. -/
theorem file_of_exited (hrun : Run WalWriter.step (fun _ _ => True) (create file) as w)
    (hpc : w.flush_pc = .exited) :
    ∃ before later w₀, as = before ++ .flush :: later ∧
      Run WalWriter.step (fun _ _ => True) (create file) before w₀ ∧
      w₀.flush_pc = .final ∧ w₀.running = false ∧
      w.file = file ++ walCodec.encodeAll (added before) ∧
      w.active_buf = w₀.active_buf ++ walCodec.encodeAll (added later) := by
  induction hrun with
  | nil => simp [create] at hpc
  | @snoc t u as a hrun _ h ih =>
    by_cases ht : t.flush_pc = .exited
    · -- A call after the end, or the destructor's request; the thread takes no more steps.
      obtain ⟨before, later, w₀, rfl, hbefore, hfinal, hstop, hfile, hactive⟩ := ih ht
      refine ⟨before, later ++ [a], w₀, by simp, hbefore, hfinal, hstop, ?_⟩
      cases a with
      | add r =>
        obtain rfl := Option.some.inj h
        refine ⟨hfile, ?_⟩
        show t.active_buf ++ r.encode = _
        rw [hactive, added_concat_add]
        simp [walCodec]
      | stop =>
        obtain rfl := Option.some.inj h
        exact ⟨hfile, by rw [added_concat_stop]; exact hactive⟩
      | flush => simp [WalWriter.step, flushStep, ht] at h
    · obtain ⟨rfl, hfinal⟩ := flush_pc_of_exited h hpc ht
      have hbuffers := file_append_buffers hrun (by simp [hfinal])
      have hflush : t.flushStep = some u := h
      obtain rfl : _ = u := by simpa [flushStep, hfinal] using hflush
      refine ⟨as, [], t, by simp, hrun, hfinal, Run.running_eq_false hrun (.inl hfinal), ?_, ?_⟩
      · simpa [unwrittenFlush, hfinal] using hbuffers
      · simp [added]

/-- For every interleaving of calls, steps of the flush thread, and the shutdown: until the final
flush, the file, what is left of `flush_buf_`, and `active_buf_` are the records in the order of
their calls; and once the flush thread has ended, which it does only after the shutdown was
requested, the file has the records of the calls before the final flush. -/
theorem log_is_stream (file : Bytes) (as : List Action) (w : WalWriter)
    (hrun : Run WalWriter.step (fun _ _ => True) (create file) as w) :
    (w.flush_pc ≠ .exited →
      w.file ++ w.unwrittenFlush ++ w.active_buf = file ++ walCodec.encodeAll (added as)) ∧
    (w.flush_pc = .exited → w.running = false ∧
      ∃ before later w₀, as = before ++ .flush :: later ∧
        Run WalWriter.step (fun _ _ => True) (create file) before w₀ ∧ w₀.flush_pc = .final ∧
        w.file = file ++ walCodec.encodeAll (added before) ∧
        w.active_buf = w₀.active_buf ++ walCodec.encodeAll (added later)) := by
  refine ⟨file_append_buffers hrun, fun hpc => ⟨Run.running_eq_false hrun (.inr hpc), ?_⟩⟩
  obtain ⟨before, later, w₀, has, hbefore, hfinal, -, hfile, hactive⟩ := file_of_exited hrun hpc
  exact ⟨before, later, w₀, has, hbefore, hfinal, hfile, hactive⟩

/-- A record, which is being written while another one is added, then the shutdown, the final flush,
and one record more. -/
def lateRecord : List Action :=
  [.add (.ack 7), .flush, .flush, .add (.ack 8), .flush, .flush, .stop, .flush, .flush,
    .add (.ack 9)]

/-- The first two records are in the file, and the second is still in `active_buf_`, before the
last. -/
theorem log_is_stream_lateRecord :
    ∃ w, exec WalWriter.step (create []) lateRecord = some w ∧ w.running = false ∧
      w.file = walCodec.encodeAll [.ack 7, .ack 8] ∧
      w.active_buf = walCodec.encodeAll [.ack 8, .ack 9] := by
  obtain ⟨w, hexec, hexited⟩ := (Option.any_eq_true _ _).mp
    (show (exec WalWriter.step (create []) lateRecord).any (fun w => w.flush_pc = .exited) = true
      by decide)
  obtain ⟨hstopped, before, later, w₀, hsplit, hbefore, hfinal, hfile, hactive⟩ :=
    (log_is_stream [] _ w (run_of_exec hexec)).2 (of_decide_eq_true hexited)
  -- The final flush is the ninth action: the thread is there before no other one.
  have htake : before = lateRecord.take before.length := by rw [hsplit, List.take_left]
  have hlt : before.length < lateRecord.length := by rw [hsplit, List.length_append]; simp
  have height : before.length = 8 := by
    have honly : ∀ k < lateRecord.length,
        (exec WalWriter.step (create []) (lateRecord.take k)).any (fun w => w.flush_pc = .final) =
          true → k = 8 := by decide
    refine honly _ hlt ?_
    rw [← htake, hbefore.exec_eq]
    exact decide_eq_true hfinal
  rw [height] at htake
  obtain rfl := htake
  have hlater : later = [.add (.ack 9)] := by
    have hdrop := congrArg (List.drop 9) hsplit
    exact hdrop.symm
  obtain rfl := hlater
  obtain rfl : _ = w₀ := Option.some.inj hbefore.exec_eq
  exact ⟨w, hexec, hstopped, hfile, hactive⟩

/-- The final flush leaves `active_buf_` as it is: after it the record is in the file and still in
the buffer. -/
theorem final_flush_keeps_buffer :
    ¬∀ (file : Bytes) (as : List Action) (w : WalWriter),
      Run WalWriter.step (fun _ _ => True) (create file) as w →
        w.file ++ w.unwrittenFlush ++ w.active_buf = file ++ walCodec.encodeAll (added as) := by
  intro h
  have hrun : Run WalWriter.step (fun _ _ => True) (create [])
      [.add (.ack 7), .stop, .flush, .flush] _ := run_of_exec rfl
  have htwice := h [] _ _ hrun
  revert htwice
  decide

end WalWriter

end EventQueue.Broker
