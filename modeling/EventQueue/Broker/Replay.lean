import EventQueue.Broker.SafeQueue
import EventQueue.Broker.WalWriter

/-!
# What a replay pushes

`replay` reads the log up to its end, or up to the record that a crash has torn, and then pushes one
message for each identifier that was published and not acknowledged. The queue is empty and nobody
pops from it yet, so the pushes complete exactly when there is room for all of them (`pushAll`).

`replay_inverts_log` says what is in the queue afterwards, for every list of records and every cut
through their bytes: it is a question about the records that lie wholly before the cut.
-/

namespace EventQueue.Broker

/-! ## The pushes -/

namespace SafeQueue

variable {α : Type} {q q' : SafeQueue α}

/-- Pushes, one after the other, while nobody pops; `none` when one of them finds the queue full and
waits. -/
def pushAll : SafeQueue α → List α → Option (SafeQueue α)
  | q, [] => some q
  | q, x :: xs => (q.push x).bind fun q => q.pushAll xs

/-- The pushes append their items. -/
theorem queue_pushAll {xs : List α} (h : q.pushAll xs = some q') : q'.queue = q.queue ++ xs := by
  induction xs generalizing q with
  | nil =>
    obtain rfl : q = q' := Option.some.inj h
    simp
  | cons x xs ih =>
    obtain ⟨p, hpush, hrest⟩ := Option.bind_eq_some_iff.mp h
    rw [ih hrest, (push_eq_some hpush).1, List.append_assoc, List.singleton_append]

/-- The pushes complete exactly when there is room for all of them. -/
theorem isSome_pushAll (q : SafeQueue α) (xs : List α) :
    (q.pushAll xs).isSome = true ↔ q.queue.length + xs.length ≤ q.capacity := by
  induction xs generalizing q with
  | nil => simpa [pushAll] using q.bounded
  | cons x xs ih =>
    rw [pushAll, List.length_cons]
    cases hpush : q.push x with
    | none =>
      have hfull := push_eq_none.mp hpush
      simp only [Option.bind_none, Option.isSome_none, Bool.false_eq_true, false_iff]
      omega
    | some p =>
      obtain ⟨hqueue, hcapacity, -⟩ := push_eq_some hpush
      rw [Option.bind_some, ih p, hqueue, hcapacity, List.length_append, List.length_singleton]
      omega

end SafeQueue

/-! ## The messages -/

variable {rs : List WalRecord} {msg_id : UInt64}

/-- The messages that are pending in a log have distinct identifiers. -/
theorem nodup_pending (rs : List WalRecord) :
    ((recover rs).pending.map Message.msg_id).Nodup := by
  unfold Recovered.pending
  rw [List.map_map]
  set c := recover rs with hc
  have hkey : ∀ e ∈ c.published.entries.filter fun e => e.1 ∉ c.acked,
      (Message.msg_id ∘ fun e : (_ : UInt64) × Message => e.2) e = e.1 := by
    intro e he
    have hlookup := AList.mem_entries_iff.mp (List.mem_filter.mp he).1
    rw [hc, lookup_published_recover, Option.map_eq_some_iff] at hlookup
    obtain ⟨p, -, hp⟩ := hlookup
    simp [← hp]
  rw [List.map_congr_left hkey]
  exact c.published.nodupKeys.sublist List.filter_sublist

/-- What `replay` pushes has distinct identifiers. -/
theorem nodup_replayMessages (file : Bytes) : ((replayMessages file).map Message.msg_id).Nodup :=
  nodup_pending _

/-- An identifier has been published exactly when there is a PUBLISH record of it. -/
theorem publishedAs_ne_nil_iff :
    publishedAs msg_id rs ≠ [] ↔ ∃ topic body, .publish msg_id topic body ∈ rs := by
  constructor
  · intro h
    obtain ⟨p, hp⟩ := List.exists_mem_of_ne_nil _ h
    obtain ⟨r, hr, hrp⟩ := List.mem_filterMap.mp hp
    cases r with
    | publish id topic body =>
      obtain rfl : id = msg_id := by
        by_contra hne
        simp [hne] at hrp
      exact ⟨topic, body, hr⟩
    | ack id => cases hrp
  · rintro ⟨topic, body, hr⟩
    have hmem : (topic, body) ∈ publishedAs msg_id rs :=
      List.mem_filterMap.mpr ⟨_, hr, if_pos rfl⟩
    exact List.ne_nil_of_mem hmem

/-- The identifiers of the messages that `replay` pushes. -/
theorem mem_ids_pending :
    (∃ m ∈ (recover rs).pending, m.msg_id = msg_id) ↔
      (∃ topic body, .publish msg_id topic body ∈ rs) ∧ .ack msg_id ∉ rs := by
  rw [← publishedAs_ne_nil_iff]
  constructor
  · rintro ⟨m, hm, rfl⟩
    obtain ⟨hack, hlast, -⟩ := mem_pending_recover.mp hm
    refine ⟨fun hnil => ?_, hack⟩
    rw [hnil] at hlast
    cases hlast
  · rintro ⟨hne, hack⟩
    obtain ⟨p, hlast⟩ : ∃ p, (publishedAs msg_id rs).getLast? = some p :=
      ⟨_, List.getLast?_eq_some_getLast hne⟩
    exact ⟨⟨msg_id, p.1, p.2, 0, 0⟩, mem_pending_recover.mpr ⟨hack, hlast, rfl, rfl⟩, rfl⟩

/-- The log of any records whose lengths fit, cut at any byte, replayed into an empty queue with
room for what is pushed: the queue then holds one message for each identifier that has a PUBLISH
record and no ACK record among the records that lie wholly before the cut, with the topic and the
body of its last such PUBLISH record and without a failure behind it. -/
theorem replay_inverts_log (hrs : ∀ r ∈ rs, r.Fits) (n : ℕ) {order : List Message}
    (horder : order.Perm (replayMessages ((walCodec.encodeAll rs).take n))) {capacity : ℕ}
    (hroom : order.length ≤ capacity) :
    ∃ q, (SafeQueue.empty capacity).pushAll order = some q ∧
      (q.queue.map Message.msg_id).Nodup ∧
      (∀ m ∈ q.queue, m.retry_count = 0 ∧
        (publishedAs m.msg_id (walCodec.whole rs n)).getLast? = some (m.topic, m.body)) ∧
      ∀ msg_id, (∃ m ∈ q.queue, m.msg_id = msg_id) ↔
        (∃ topic body, .publish msg_id topic body ∈ walCodec.whole rs n) ∧
          .ack msg_id ∉ walCodec.whole rs n := by
  have hpushed : ((SafeQueue.empty capacity).pushAll order).isSome = true :=
    (SafeQueue.isSome_pushAll _ order).mpr (by simpa [SafeQueue.empty] using hroom)
  obtain ⟨q, hq⟩ := Option.isSome_iff_exists.mp hpushed
  have hqueue : q.queue.Perm (recover (walCodec.whole rs n)).pending := by
    rw [SafeQueue.queue_pushAll hq, ← walCodec.run_take_encodeAll hrs n]
    exact horder
  refine ⟨q, hq, ?_, fun m hm => ?_, fun msg_id => ?_⟩
  · rw [(hqueue.map _).nodup_iff, ← walCodec.run_take_encodeAll hrs n]
    exact nodup_replayMessages _
  · obtain ⟨-, hlast, hretry, -⟩ := mem_pending_recover.mp (hqueue.subset hm)
    exact ⟨hretry, hlast⟩
  · rw [← mem_ids_pending]
    simp only [hqueue.mem_iff]

/-- A log of two messages and an acknowledgement of the first, cut inside a third message: the
second is pushed. -/
theorem replay_inverts_log_torn :
    ∃ q, (SafeQueue.empty 1).pushAll (replayMessages ((walCodec.encodeAll
        [.publish 1 [0x74] [], .publish 2 [0x75] [0x31], .ack 1, .publish 3 [0x74] []]).take 50)) =
          some q ∧ ∃ m ∈ q.queue, m.msg_id = 2 := by
  have hfits : ∀ r ∈ [WalRecord.publish 1 [0x74] [], .publish 2 [0x75] [0x31], .ack 1,
      .publish 3 [0x74] []], r.Fits := by decide
  obtain ⟨q, hq, -, -, hids⟩ := replay_inverts_log hfits 50 (List.Perm.refl _)
    (show _ ≤ 1 by decide)
  exact ⟨q, hq, (hids 2).mpr ⟨⟨[0x75], [0x31], by decide⟩, by decide⟩⟩

end EventQueue.Broker
