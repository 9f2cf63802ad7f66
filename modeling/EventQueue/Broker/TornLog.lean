import EventQueue.Broker.WalWriter
import EventQueue.Lib.Transition

/-!
# A log that was torn

A crash can cut the log at any byte. `replay` stops at the cut and finds the records before it. But
the constructor then opens the file for appending, so the next record starts where the torn one
broke off, and a later `replay` reads across the seam. The log reads back as the whole records
before the cut and all records after it exactly when the cut falls between two records.

When it does not, the first byte after the whole records is the type of the torn one, and whatever
is read there has that type: a single record of the other type is already lost.
-/

namespace EventQueue.Broker

open Transition (exec run_of_exec)

variable {rs : List WalRecord} {n : ℕ}

/-- The type byte of a record. -/
def WalRecord.type : WalRecord → UInt8
  | .publish .. => 0x01
  | .ack _ => 0x02

/-- A record that is read has the type of the first byte. -/
theorem type_of_dec {b : UInt8} {bs rest : Bytes} {r : WalRecord}
    (h : walCodec.dec (b :: bs) = some (r, rest)) : r.type = b := by
  obtain ⟨p, hp, heq⟩ := Option.map_eq_some_iff.mp h
  obtain ⟨b', bs', m, hcons, hm, rfl, -⟩ := IStream.readRecord_eq_some hp
  obtain ⟨rfl, rfl⟩ := List.cons.inj hcons
  obtain ⟨rfl, -⟩ := Prod.mk.inj heq
  unfold IStream.fieldsOf at hm
  split_ifs at hm with h₁ h₂
  · obtain rfl := Option.some.inj hm
    exact h₁.symm
  · obtain rfl := Option.some.inj hm
    exact h₂.symm

/-- A writer keeps what it was opened with. -/
theorem opened_of_exec {file : Bytes} {as : List WalWriter.Action} {w : WalWriter}
    (h : exec WalWriter.step (WalWriter.create file) as = some w) : w.opened = file := by
  refine (run_of_exec h).invariant (I := fun w => w.opened = file) (fun w a w' hw _ hstep => ?_) rfl
  cases a with
  | add r | stop =>
    obtain rfl := Option.some.inj hstep
    exact hw
  | flush =>
    exact (WalWriter.flushStep_opened hstep).trans hw

/-- A writer that is closed after one record has flushed it. -/
theorem exec_one_record (file : Bytes) (r : WalRecord) :
    exec WalWriter.step (WalWriter.create file) [.add r, .stop, .flush, .flush] =
      some ⟨file ++ r.encode, r.encode, [], false, .exited, file, [r]⟩ := by
  rfl

/-- The log that a crash has cut after `n` bytes, and that a new writer has added records to, reads
back as the whole records before the cut and then all records that were added: for all of them,
exactly when the cut falls between two records. -/
theorem torn_log_reads_back (hrs : ∀ r ∈ rs, r.Fits) (n : ℕ) :
    (∀ as w, exec WalWriter.step (WalWriter.create ((walCodec.encodeAll rs).take n)) as = some w →
      (∀ r ∈ w.records, r.Fits) → w.AllFlushed →
      (walCodec.run w.file).1 = walCodec.whole rs n ++ w.records) ↔
    ∃ j, (walCodec.encodeAll rs).take n = walCodec.encodeAll (rs.take j) := by
  obtain ⟨torn, htake, hrun⟩ := walCodec.exists_run_take hrs n
  have hwhole : ∀ r ∈ walCodec.whole rs n, r.Fits := fun r hr =>
    hrs r ((walCodec.whole_isPrefix rs n).subset hr)
  constructor
  · intro hreads
    refine ⟨(walCodec.whole rs n).length, ?_⟩
    have hwhole_take : rs.take (walCodec.whole rs n).length = walCodec.whole rs n :=
      (List.prefix_iff_eq_take.mp (walCodec.whole_isPrefix rs n)).symm
    rw [hwhole_take, htake]
    cases torn with
    | nil => simp
    | cons b torn =>
      -- Add one record of the type that the torn one does not have.
      exfalso
      obtain ⟨r, hr, htype⟩ : ∃ r : WalRecord, r.Fits ∧ r.type ≠ b := by
        by_cases hb : b = 0x01
        · exact ⟨.ack 0, trivial, by simp [WalRecord.type, hb]⟩
        · exact ⟨.publish 0 [] [], by decide, fun h => hb h.symm⟩
      have hread := hreads _ _ (exec_one_record _ r) (by simpa using hr)
        (by simp [WalWriter.AllFlushed, walCodec])
      rw [htake, List.append_assoc, walCodec.run_encodeAll_append hwhole] at hread
      have hread : (walCodec.run ((b :: torn) ++ r.encode)).1 = [r] :=
        List.append_cancel_left hread
      cases hdec : walCodec.dec ((b :: torn) ++ r.encode) with
      | none =>
        rw [walCodec.run_of_none hdec] at hread
        cases hread
      | some p =>
        obtain ⟨r', rest⟩ := p
        rw [walCodec.run_of_some hdec] at hread
        obtain ⟨hp, -⟩ := List.cons.inj hread
        exact htype (hp ▸ type_of_dec hdec)
  · rintro ⟨j, hj⟩ as w hexec hfits hflushed
    have hnil : torn = [] := by
      rw [hj, walCodec.run_encodeAll fun r hr => hrs r (List.mem_of_mem_take hr)] at hrun
      exact (Prod.mk.inj hrun).2.symm
    rw [hflushed, opened_of_exec hexec, htake, hnil, List.append_nil, ← walCodec.encodeAll_append,
      walCodec.run_encodeAll]
    simpa [or_imp, forall_and] using ⟨hwhole, hfits⟩

/-- A log of one message, cut between its two records: the acknowledgement that follows the message
is lost, and one that is added later is found. -/
theorem torn_log_reads_back_at_boundary :
    ∃ w, exec WalWriter.step
        (WalWriter.create ((walCodec.encodeAll [.publish 1 [0x74] [], .ack 1]).take 16))
        [.add (.ack 7), .stop, .flush, .flush] = some w ∧
      (walCodec.run w.file).1 =
        walCodec.whole [.publish 1 [0x74] [], .ack 1] 16 ++ [.ack 7] := by
  refine ⟨_, exec_one_record _ (.ack 7), ?_⟩
  have hfits : ∀ r ∈ [WalRecord.publish 1 [0x74] [], .ack 1], r.Fits := by decide
  exact (torn_log_reads_back hfits 16).mpr ⟨1, by decide⟩ _ _ (exec_one_record _ (.ack 7))
    (by decide) (by decide)

/-- A log of one message that was cut after its type and half of its identifier. The message that a
new writer adds is lost: its bytes are read as the rest of the torn record. -/
theorem torn_log_loses_record :
    ∃ w, exec WalWriter.step
        (WalWriter.create ((walCodec.encodeAll [.publish 1 [0x74] []]).take 5))
        [.add (.publish 2 [0x74] []), .stop, .flush, .flush] = some w ∧ w.AllFlushed ∧
      (walCodec.run w.file).1 ≠
        walCodec.whole [.publish 1 [0x74] []] 5 ++ [.publish 2 [0x74] []] := by
  refine ⟨_, exec_one_record _ _, ?_, ?_⟩
  · decide
  · decide

end EventQueue.Broker
