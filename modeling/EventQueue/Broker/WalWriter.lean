import EventQueue.Broker.Protocol
import EventQueue.Lib.StreamDecoder
import EventQueue.Lib.AssocMap

/-!
# The write-ahead log

`WalWriter` of `broker/src/WalWriter.cpp`. A record is a PUBLISH record (type, identifier, topic
with a 16-bit length, body with a 32-bit length) or an ACK record (type, identifier). `append` and
`acknowledge` add a record's bytes to `active_buf_`; the flush thread swaps the buffers and writes
the other one to the file. `replay` reads the file through a stream whose failure flag is sticky and
is tested only after a record's last field.

`walCodec` packages the two directions for the lemmas of `Lib/StreamDecoder.lean`: a record whose
lengths fit its length fields is read back, and a torn one is not read at all.
-/

namespace EventQueue.Broker

open BigEndian (be ofBe length_be ofBe_be)

/-! ## Records -/

/-- A record of the log. -/
inductive WalRecord
  /-- A message that was accepted. -/
  | publish (msg_id : UInt64) (topic body : Bytes)
  /-- An identifier that was acknowledged. -/
  | ack (msg_id : UInt64)
deriving DecidableEq, Repr

namespace WalRecord

/-- The record that `append` writes for a message. -/
def ofMessage (msg : Message) : WalRecord := .publish msg.msg_id msg.topic msg.body

/-- The bytes that `append` and `acknowledge` add to the buffer. The lengths are narrowed to the
width of their fields; the topic and the body are written whole. -/
def encode : WalRecord → Bytes
  | .publish msg_id topic body =>
    [0x01] ++ mem64 (toBe64 msg_id) ++ mem16 (toBe16 (UInt16.ofNat topic.length)) ++ topic ++
      mem32 (toBe32 (UInt32.ofNat body.length)) ++ body
  | .ack msg_id => [0x02] ++ mem64 (toBe64 msg_id)

/-- The record's lengths fit the fields that hold them. -/
def Fits : WalRecord → Prop
  | .publish _ topic body => topic.length < 2 ^ 16 ∧ body.length < 2 ^ 32
  | .ack _ => True

instance : DecidablePred Fits := fun r =>
  match r with
  | .publish _ topic body =>
    inferInstanceAs (Decidable (topic.length < 2 ^ 16 ∧ body.length < 2 ^ 32))
  | .ack _ => inferInstanceAs (Decidable True)

end WalRecord

/-! ## The input stream -/

/-- A `std::ifstream`: the bytes that are left, and the failure flag. -/
structure IStream where
  /-- The bytes not read yet. -/
  rest : Bytes
  /-- Set by a read that comes up short, and never cleared. -/
  fail : Bool
deriving DecidableEq, Repr

namespace IStream

/-- The stream with more bytes at its end. -/
def append (s : IStream) (more : Bytes) : IStream := { s with rest := s.rest ++ more }

/-- `read`: the next `n` bytes. When fewer are left it takes those and sets the flag, and on a
stream that has failed it takes none. -/
def read (n : ℕ) : StateM IStream Bytes := fun s =>
  if s.fail then ([], s)
  else if n ≤ s.rest.length then (s.rest.take n, ⟨s.rest.drop n, false⟩)
  else (s.rest, ⟨[], true⟩)

/-- `read_be16`, into a word that starts as zero. -/
def readBe16 : StateM IStream UInt16 := do return toBe16 (load16 (← read 2))

/-- `read_be32`, into a word that starts as zero. -/
def readBe32 : StateM IStream UInt32 := do return toBe32 (load32 (← read 4))

/-- `read_be64`, into a word that starts as zero. -/
def readBe64 : StateM IStream UInt64 := do return toBe64 (load64 (← read 8))

/-- The fields of a PUBLISH record after its type. -/
def readPublish : StateM IStream WalRecord := do
  let msg_id ← readBe64
  let topic_len ← readBe16
  let topic ← read topic_len.toNat
  let body_len ← readBe32
  let body ← read body_len.toNat
  return .publish msg_id topic body

/-- The field of an ACK record after its type. -/
def readAck : StateM IStream WalRecord := do return .ack (← readBe64)

/-- The reader of a record's other fields, by its type; `none` is an unknown type. -/
def fieldsOf (record_type : UInt8) : Option (StateM IStream WalRecord) :=
  if record_type = 0x01 then some readPublish
  else if record_type = 0x02 then some readAck
  else none

/-- One round of the loop of `replay`; `none` leaves the loop. At the end of the file the read of
the type fails, which is the loop's own test. -/
def readRecord (s : IStream) : Option (WalRecord × IStream) :=
  let (type, s) := read 1 s
  if s.fail then none
  else
    match fieldsOf (type.headD 0) with
    | none => none
    | some fields =>
      let (r, s) := fields s
      if s.fail then none else some (r, s)

/-! ### What a reader does to the stream -/

/-- What every reader of this file does: a failure is sticky, the stream gets no longer, and a
reader that does not fail does not look past what it reads. -/
structure Reads {α : Type} (m : StateM IStream α) : Prop where
  /-- A stream that has failed stays so. -/
  sticky : ∀ s : IStream, s.fail = true → (m s).2.fail = true
  /-- Bytes are only taken off the front. -/
  shrinks : ∀ s : IStream, (m s).2.rest.length ≤ s.rest.length
  /-- Bytes at the end are not looked at. -/
  stable : ∀ (s : IStream) (more : Bytes), (m s).2.fail = false →
    m (s.append more) = ((m s).1, (m s).2.append more)

theorem reads_read (n : ℕ) : Reads (read n) where
  sticky s h := by simp [read, h]
  shrinks s := by unfold read; split_ifs <;> simp
  stable s more h := by
    unfold read at h ⊢
    split_ifs at h with hf hn
    · simp_all
    · have hn' : n ≤ (s.append more).rest.length := by simp [append]; omega
      have hf' : ¬(s.append more).fail = true := hf
      rw [if_neg hf', if_pos hn', if_neg hf, if_pos hn]
      simp [append, List.take_append_of_le_length hn, List.drop_append_of_le_length hn]

theorem reads_pure {α : Type} (a : α) : Reads (pure a : StateM IStream α) where
  sticky _ h := h
  shrinks _ := le_rfl
  stable _ _ _ := rfl

theorem reads_bind {α γ : Type} {m : StateM IStream α} {k : α → StateM IStream γ} (hm : Reads m)
    (hk : ∀ a, Reads (k a)) : Reads (m >>= k) where
  sticky s h := (hk _).sticky _ (hm.sticky s h)
  shrinks s := ((hk _).shrinks _).trans (hm.shrinks s)
  stable s more h := by
    have hfail : (m s).2.fail = false := by
      by_contra hne
      exact absurd ((hk (m s).1).sticky _ (by simpa using hne)) (by
        have : (k (m s).1 (m s).2).2.fail = false := h
        simp [this])
    show k (m (s.append more)).1 (m (s.append more)).2 = _
    rw [hm.stable s more hfail]
    exact (hk _).stable _ more h

theorem reads_readBe16 : Reads readBe16 := reads_bind (reads_read 2) fun _ => reads_pure _

theorem reads_readBe32 : Reads readBe32 := reads_bind (reads_read 4) fun _ => reads_pure _

theorem reads_readBe64 : Reads readBe64 := reads_bind (reads_read 8) fun _ => reads_pure _

theorem reads_readAck : Reads readAck := reads_bind reads_readBe64 fun _ => reads_pure _

theorem reads_readPublish : Reads readPublish :=
  reads_bind reads_readBe64 fun _ => reads_bind reads_readBe16 fun _ =>
    reads_bind (reads_read _) fun _ => reads_bind reads_readBe32 fun _ =>
      reads_bind (reads_read _) fun _ => reads_pure _

theorem reads_fieldsOf {b : UInt8} {m : StateM IStream WalRecord} (h : fieldsOf b = some m) :
    Reads m := by
  unfold fieldsOf at h
  split_ifs at h
  · obtain rfl := Option.some.inj h
    exact reads_readPublish
  · obtain rfl := Option.some.inj h
    exact reads_readAck

theorem readRecord_nil : readRecord ⟨[], false⟩ = none := by simp [readRecord, read]

/-- On a good stream with a byte left, that byte selects the reader of the other fields. -/
theorem readRecord_cons (b : UInt8) (bs : Bytes) :
    readRecord ⟨b :: bs, false⟩ =
      (fieldsOf b).bind fun m =>
        if (m ⟨bs, false⟩).2.fail then none else some (m ⟨bs, false⟩) := by
  simp only [readRecord, read]
  cases h : fieldsOf b with
  | none => simp [h]
  | some m =>
    simp only [Bool.false_eq_true, if_false, List.length_cons, Nat.le_add_left, if_true,
      List.take_succ_cons, List.take_zero, List.headD_cons, h, Option.bind_some,
      List.drop_succ_cons,
      List.drop_zero]
    rfl

/-- A record that is read comes from a byte that selects its reader, which then does not fail. -/
theorem readRecord_eq_some {bs : Bytes} {p : WalRecord × IStream}
    (h : readRecord ⟨bs, false⟩ = some p) :
    ∃ b bs' m, bs = b :: bs' ∧ fieldsOf b = some m ∧ m ⟨bs', false⟩ = p ∧ p.2.fail = false := by
  cases bs with
  | nil => simp [readRecord_nil] at h
  | cons b bs' =>
    rw [readRecord_cons] at h
    obtain ⟨m, hm, hp⟩ := Option.bind_eq_some_iff.mp h
    split_ifs at hp with hfail
    obtain rfl := Option.some.inj hp
    exact ⟨b, bs', m, rfl, hm, rfl, by simpa using hfail⟩

/-- A read of a prefix takes exactly the prefix. -/
theorem read_append_eq {n : ℕ} {bs rest : Bytes} (h : bs.length = n) :
    read n ⟨bs ++ rest, false⟩ = (bs, ⟨rest, false⟩) := by
  subst h
  simp [read]

theorem readBe16_append (v : UInt16) (rest : Bytes) :
    readBe16 ⟨mem16 (toBe16 v) ++ rest, false⟩ = (v, ⟨rest, false⟩) := by
  have hdef : ∀ s, readBe16 s = (toBe16 (load16 (read 2 s).1), (read 2 s).2) := fun _ => rfl
  rw [hdef, read_append_eq (by simp [mem16]), write_be16_eq]
  congr 1
  apply UInt16.toNat_inj.mp
  rw [toBe16_load16 (length_be _ _), ofBe_be v.toNat_lt]

theorem readBe32_append (v : UInt32) (rest : Bytes) :
    readBe32 ⟨mem32 (toBe32 v) ++ rest, false⟩ = (v, ⟨rest, false⟩) := by
  have hdef : ∀ s, readBe32 s = (toBe32 (load32 (read 4 s).1), (read 4 s).2) := fun _ => rfl
  rw [hdef, read_append_eq (by simp [mem32]), write_be32_eq]
  congr 1
  apply UInt32.toNat_inj.mp
  rw [toBe32_load32 (length_be _ _), ofBe_be v.toNat_lt]

theorem readBe64_append (v : UInt64) (rest : Bytes) :
    readBe64 ⟨mem64 (toBe64 v) ++ rest, false⟩ = (v, ⟨rest, false⟩) := by
  have hdef : ∀ s, readBe64 s = (toBe64 (load64 (read 8 s).1), (read 8 s).2) := fun _ => rfl
  rw [hdef, read_append_eq (by simp [mem64, mem32]), write_be64_eq]
  congr 1
  apply UInt64.toNat_inj.mp
  rw [toBe64_load64 (length_be _ _), ofBe_be v.toNat_lt]

theorem readAck_append (msg_id : UInt64) (rest : Bytes) :
    readAck ⟨mem64 (toBe64 msg_id) ++ rest, false⟩ = (.ack msg_id, ⟨rest, false⟩) := by
  have hdef : ∀ s, readAck s = (.ack (readBe64 s).1, (readBe64 s).2) := fun _ => rfl
  rw [hdef, readBe64_append]

/-- The fields of a PUBLISH record are read back when their lengths fit. -/
theorem readPublish_append (msg_id : UInt64) (topic body rest : Bytes)
    (ht : topic.length < 2 ^ 16) (hb : body.length < 2 ^ 32) :
    readPublish ⟨mem64 (toBe64 msg_id) ++ (mem16 (toBe16 (UInt16.ofNat topic.length)) ++ (topic ++
      (mem32 (toBe32 (UInt32.ofNat body.length)) ++ (body ++ rest)))), false⟩ =
      (.publish msg_id topic body, ⟨rest, false⟩) := by
  have ht' : (UInt16.ofNat topic.length).toNat = topic.length := UInt16.toNat_ofNat_of_lt ht
  have hb' : (UInt32.ofNat body.length).toNat = body.length := UInt32.toNat_ofNat_of_lt hb
  simp only [readPublish, bind, StateT.bind, readBe64_append, readBe16_append, ht',
    read_append_eq (n := topic.length) rfl, readBe32_append, hb',
    read_append_eq (n := body.length) rfl]
  rfl

end IStream

/-- The log's records as a codec: `decode` is one round of the loop of `replay`, and `encode` is
inverted on the records whose lengths fit. -/
def walCodec : Codec UInt8 WalRecord where
  dec bs := (IStream.readRecord ⟨bs, false⟩).map fun p => (p.1, p.2.rest)
  shrinks h := by
    obtain ⟨p, hp, heq⟩ := Option.map_eq_some_iff.mp h
    obtain ⟨b, bs', m, rfl, hm, rfl, -⟩ := IStream.readRecord_eq_some hp
    obtain ⟨-, rfl⟩ := Prod.mk.inj heq
    have : _ ≤ bs'.length := (IStream.reads_fieldsOf hm).shrinks ⟨bs', false⟩
    simp only [List.length_cons]
    omega
  stable more h := by
    obtain ⟨p, hp, heq⟩ := Option.map_eq_some_iff.mp h
    obtain ⟨b, bs', m, rfl, hm, rfl, hfail⟩ := IStream.readRecord_eq_some hp
    obtain ⟨rfl, rfl⟩ := Prod.mk.inj heq
    have hstable := (IStream.reads_fieldsOf hm).stable ⟨bs', false⟩ more hfail
    simp only [IStream.append] at hstable
    rw [List.cons_append, IStream.readRecord_cons, hm, Option.bind_some, hstable]
    simp [hfail]
  enc := WalRecord.encode
  Valid := WalRecord.Fits
  dec_enc := by
    intro r rest hr
    cases r with
    | publish msg_id topic body =>
      have := IStream.readPublish_append msg_id topic body rest hr.1 hr.2
      simp only [WalRecord.encode, List.append_assoc, List.cons_append, List.nil_append,
        IStream.readRecord_cons, IStream.fieldsOf, if_true, Option.bind_some, this]
      simp
    | ack msg_id =>
      have := IStream.readAck_append msg_id rest
      simp only [WalRecord.encode, List.cons_append, List.nil_append,
        IStream.readRecord_cons, IStream.fieldsOf]
      simp [this]

/-! ## Replay -/

/-- What `replay` collects: `published` and `acked`. -/
structure Recovered where
  /-- The last message published under each identifier. -/
  published : AList fun _ : UInt64 => Message
  /-- The identifiers acknowledged. -/
  acked : List UInt64

/-- One record, added to what was collected. A record that is replayed starts a new life, so the
ghost `origin` is set when it is queued. -/
def Recovered.add (c : Recovered) : WalRecord → Recovered
  | .publish msg_id topic body =>
    { c with published := c.published.insert msg_id ⟨msg_id, topic, body, 0, 0⟩ }
  | .ack msg_id => { c with acked := msg_id :: c.acked }

/-- What the records of a log amount to. -/
def recover (rs : List WalRecord) : Recovered := rs.foldl Recovered.add ⟨∅, []⟩

/-- The messages that the last loop of `replay` pushes: those published and not acknowledged. -/
def Recovered.pending (c : Recovered) : List Message :=
  (c.published.entries.filter fun e => e.1 ∉ c.acked).map fun e => e.2

/-- The messages that `replay` pushes for a file, in an order that the language leaves open. -/
def replayMessages (file : Bytes) : List Message := (recover (walCodec.run file).1).pending

/-- The topics and bodies that a log published under an identifier, in order. -/
def publishedAs (msg_id : UInt64) (rs : List WalRecord) : List (Bytes × Bytes) :=
  rs.filterMap fun
    | .publish id topic body => if id = msg_id then some (topic, body) else none
    | .ack _ => none

theorem recover_concat (rs : List WalRecord) (r : WalRecord) :
    recover (rs ++ [r]) = (recover rs).add r := by
  simp [recover]

/-- `acked` is the set of acknowledged identifiers. -/
theorem mem_acked_recover {rs : List WalRecord} {msg_id : UInt64} :
    msg_id ∈ (recover rs).acked ↔ .ack msg_id ∈ rs := by
  induction rs using List.reverseRecOn with
  | nil => simp [recover]
  | append_singleton rs r ih =>
    rw [recover_concat]
    cases r with
    | publish id topic body => simpa [Recovered.add] using ih
    | ack id => simp [Recovered.add, ih, or_comm]

/-- `published` holds the last record of each identifier. -/
theorem lookup_published_recover (rs : List WalRecord) (msg_id : UInt64) :
    (recover rs).published.lookup msg_id =
      (publishedAs msg_id rs).getLast?.map fun p => ⟨msg_id, p.1, p.2, 0, 0⟩ := by
  induction rs using List.reverseRecOn with
  | nil => simp [recover, publishedAs]
  | append_singleton rs r ih =>
    rw [recover_concat]
    cases r with
    | publish id topic body =>
      by_cases h : id = msg_id
      · subst h
        simp [Recovered.add, publishedAs]
      · have hne : msg_id ≠ id := fun e => h e.symm
        simp only [Recovered.add, AList.lookup_insert_ne hne, ih]
        simp [publishedAs, h]
    | ack id => simpa [Recovered.add, publishedAs] using ih

/-- What `replay` pushes: for each identifier without an ACK record, its last PUBLISH record. -/
theorem mem_pending_recover {rs : List WalRecord} {m : Message} :
    m ∈ (recover rs).pending ↔ .ack m.msg_id ∉ rs ∧
      (publishedAs m.msg_id rs).getLast? = some (m.topic, m.body) ∧
      m.retry_count = 0 ∧ m.origin = 0 := by
  have hentry : ∀ id m', (⟨id, m'⟩ : (_ : UInt64) × Message) ∈ (recover rs).published.entries ↔
      ∃ p, (publishedAs id rs).getLast? = some p ∧ m' = ⟨id, p.1, p.2, 0, 0⟩ := by
    intro id m'
    rw [AList.mem_entries_iff, lookup_published_recover, Option.map_eq_some_iff]
    simp only [eq_comm]
  simp only [Recovered.pending, List.mem_map, List.mem_filter, decide_eq_true_eq, mem_acked_recover]
  constructor
  · rintro ⟨⟨id, m'⟩, ⟨hmem, hack⟩, rfl⟩
    obtain ⟨p, hp, rfl⟩ := (hentry id m').mp hmem
    exact ⟨hack, hp, rfl, rfl⟩
  · rintro ⟨hack, hp, hr, ho⟩
    refine ⟨⟨m.msg_id, m⟩, ⟨(hentry _ _).mpr ⟨_, hp, ?_⟩, hack⟩, rfl⟩
    cases m
    simp_all

/-! ## The writer -/

/-- Where the flush thread stands. -/
inductive FlushPc
  /-- At the test of the loop. -/
  | test
  /-- Waiting, before the lock, the empty test, and the swap. -/
  | wait
  /-- Before the write of `flush_buf_`, without the lock. -/
  | write
  /-- Before `flush_buf_.clear()`. -/
  | clear
  /-- Before the final flush. -/
  | final
  /-- The thread has ended. -/
  | exited
deriving DecidableEq, Repr

/-- The state of a `WalWriter`. `opened` and `records` are ghosts: what the file held when it was
opened, and the records that were added since, in the order in which their calls took the lock. -/
structure WalWriter where
  /-- The file. -/
  file : Bytes
  /-- The buffer that `append` and `acknowledge` write to. -/
  active_buf : Bytes
  /-- The buffer that the flush thread writes to the file. -/
  flush_buf : Bytes
  /-- Cleared when the writer is destroyed. -/
  running : Bool
  /-- Where the flush thread stands. -/
  flush_pc : FlushPc
  /-- Ghost: the file when it was opened. -/
  opened : Bytes
  /-- Ghost: the records added since. -/
  records : List WalRecord
deriving DecidableEq

namespace WalWriter

/-- The constructor: the file is opened for appending, over whatever it ends with. -/
def create (file : Bytes) : WalWriter := ⟨file, [], [], true, .test, file, []⟩

/-- `append` and `acknowledge`, in one critical section of `mu_`. -/
def add (w : WalWriter) (r : WalRecord) : WalWriter :=
  { w with active_buf := w.active_buf ++ r.encode, records := w.records ++ [r] }

/-- The destructor's request to stop. -/
def requestStop (w : WalWriter) : WalWriter := { w with running := false }

/-- One step of the flush thread; `none` when it has ended. -/
def flushStep (w : WalWriter) : Option WalWriter :=
  match w.flush_pc with
  | .test => some { w with flush_pc := if w.running then .wait else .final }
  | .wait =>
    if w.active_buf.isEmpty then some { w with flush_pc := .test }
    else some { w with active_buf := w.flush_buf, flush_buf := w.active_buf, flush_pc := .write }
  | .write => some { w with file := w.file ++ w.flush_buf, flush_pc := .clear }
  | .clear => some { w with flush_buf := [], flush_pc := .test }
  | .final => some { w with file := w.file ++ w.active_buf, flush_pc := .exited }
  | .exited => none

/-- Every record added so far has reached the file. -/
def AllFlushed (w : WalWriter) : Prop := w.file = w.opened ++ walCodec.encodeAll w.records

instance : DecidablePred AllFlushed := fun w =>
  inferInstanceAs (Decidable (w.file = w.opened ++ walCodec.encodeAll w.records))

/-- One action on the writer: a call of `append` or `acknowledge`, the destructor's request, or a
step of the flush thread. -/
inductive Action
  | add (r : WalRecord)
  | stop
  | flush
deriving DecidableEq, Repr

/-- The writer after an action. -/
def step (w : WalWriter) : Action → Option WalWriter
  | .add r => some (w.add r)
  | .stop => some w.requestStop
  | .flush => w.flushStep

/-- The records that a reader of the whole log would find, were everything flushed. -/
def log (w : WalWriter) : List WalRecord := (walCodec.run w.opened).1 ++ w.records

/-- The bytes that were added and not written. -/
def unwritten (w : WalWriter) : Bytes :=
  match w.flush_pc with
  | .write => w.flush_buf ++ w.active_buf
  | _ => w.active_buf

/-- Until the flush thread has ended, no byte is lost or written twice. -/
structure Balanced (w : WalWriter) : Prop where
  /-- The second buffer is empty when the buffers are swapped. -/
  swap : w.flush_pc = .test ∨ w.flush_pc = .wait → w.flush_buf = []
  /-- The file and what is not written make up the log. -/
  file : w.flush_pc ≠ .exited → w.file ++ w.unwritten = w.opened ++ walCodec.encodeAll w.records

variable {w w' : WalWriter} {a : Action}

/-- What a step of the flush thread can do. -/
theorem flushStep_cases (h : w.flushStep = some w') :
    w.flush_pc = .test ∧ w' = { w with flush_pc := if w.running then .wait else .final } ∨
    w.flush_pc = .wait ∧ w' = { w with flush_pc := .test } ∨
    w.flush_pc = .wait ∧
      w' = { w with active_buf := w.flush_buf, flush_buf := w.active_buf, flush_pc := .write } ∨
    w.flush_pc = .write ∧ w' = { w with file := w.file ++ w.flush_buf, flush_pc := .clear } ∨
    w.flush_pc = .clear ∧ w' = { w with flush_buf := [], flush_pc := .test } ∨
    w.flush_pc = .final ∧ w' = { w with file := w.file ++ w.active_buf, flush_pc := .exited } := by
  unfold flushStep at h
  cases hpc : w.flush_pc with
  | test =>
    obtain rfl : _ = w' := by simpa [hpc] using h
    exact .inl ⟨rfl, rfl⟩
  | wait =>
    rw [hpc] at h
    dsimp only at h
    split_ifs at h
    · obtain rfl := Option.some.inj h
      exact .inr (.inl ⟨rfl, rfl⟩)
    · obtain rfl := Option.some.inj h
      exact .inr (.inr (.inl ⟨rfl, rfl⟩))
  | write =>
    obtain rfl : _ = w' := by simpa [hpc] using h
    simp
  | clear =>
    obtain rfl : _ = w' := by simpa [hpc] using h
    simp
  | final =>
    obtain rfl : _ = w' := by simpa [hpc] using h
    simp
  | exited => simp [hpc] at h

/-- The flush thread leaves the ghosts alone: the file that the log was opened on. -/
theorem flushStep_opened (h : w.flushStep = some w') : w'.opened = w.opened := by
  obtain ⟨-, rfl⟩ | ⟨-, rfl⟩ | ⟨-, rfl⟩ | ⟨-, rfl⟩ | ⟨-, rfl⟩ | ⟨-, rfl⟩ := flushStep_cases h
  all_goals rfl

/-- And the records that were added. -/
theorem flushStep_records (h : w.flushStep = some w') : w'.records = w.records := by
  obtain ⟨-, rfl⟩ | ⟨-, rfl⟩ | ⟨-, rfl⟩ | ⟨-, rfl⟩ | ⟨-, rfl⟩ | ⟨-, rfl⟩ := flushStep_cases h
  all_goals rfl

theorem balanced_create (file : Bytes) : (create file).Balanced := by
  constructor <;> simp [create, unwritten]

/-- No action loses a byte. -/
theorem Balanced.step (h : w.Balanced) (hstep : w.step a = some w') : w'.Balanced := by
  obtain ⟨hswap, hfile⟩ := h
  cases a with
  | add r =>
    obtain rfl := Option.some.inj hstep
    refine ⟨hswap, fun hpc => ?_⟩
    -- The record goes to the end of what is not written, in whichever buffer.
    have hadd : (w.add r).unwritten = w.unwritten ++ r.encode := by
      unfold unwritten add
      dsimp only
      split <;> simp
    rw [hadd, ← List.append_assoc]
    show w.file ++ w.unwritten ++ r.encode = w.opened ++ walCodec.encodeAll (w.records ++ [r])
    rw [hfile hpc]
    simp [walCodec]
  | stop =>
    obtain rfl := Option.some.inj hstep
    exact ⟨hswap, hfile⟩
  | flush =>
    obtain ⟨hpc, rfl⟩ | ⟨hpc, rfl⟩ | ⟨hpc, rfl⟩ | ⟨hpc, rfl⟩ | ⟨hpc, rfl⟩ | ⟨hpc, rfl⟩ :=
      flushStep_cases hstep
    · -- The thread goes on to wait or to the final flush; the buffers stay.
      have hfile := hfile (by simp [hpc])
      refine ⟨fun _ => hswap (.inl hpc), fun _ => ?_⟩
      cases hrun : w.running <;> simpa [unwritten, hpc, hrun] using hfile
    · have hfile := hfile (by simp [hpc])
      exact ⟨fun _ => hswap (.inr hpc), fun _ => by simpa [unwritten, hpc] using hfile⟩
    · -- The buffers are swapped, and the one that was swapped in is empty.
      have hfile := hfile (by simp [hpc])
      exact ⟨by simp, fun _ => by simpa [unwritten, hpc, hswap (.inr hpc)] using hfile⟩
    · exact ⟨by simp, fun _ => by simpa [unwritten, hpc] using hfile (by simp [hpc])⟩
    · exact ⟨by simp, fun _ => by simpa [unwritten, hpc] using hfile (by simp [hpc])⟩
    · exact ⟨by simp, by simp⟩

/-- The final flush writes everything. -/
theorem Balanced.allFlushed_final (h : w.Balanced) (hpc : w.flush_pc = .final)
    (hstep : w.flushStep = some w') : w'.AllFlushed := by
  obtain rfl : _ = w' := by simpa [flushStep, hpc] using hstep
  simpa [AllFlushed, unwritten, hpc] using h.file (by simp [hpc])

end WalWriter

end EventQueue.Broker
