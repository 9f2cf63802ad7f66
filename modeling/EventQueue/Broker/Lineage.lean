import EventQueue.Broker.Flow

/-!
# Failures behind a copy

A copy of a message carries `retry_count`, which is written into its entry of `in_flight_` when it
is tracked, and from there, one higher, into the copy that goes back on the queue when the delivery
fails. `Lineage` is what the count stands for: the failed deliveries, by their places in the
history, that a copy descends from since it was published, replayed, or dead-lettered. Several
copies of one message, and entries that another copy has overwritten, have lineages of their own, so
nothing is asked of identifiers or of the number of subscribers.

Every copy has a lineage as long as its count (`Descended`). A delivery that fails with
`max_retries` behind it makes one failure more, so every dead letter comes after `max_retries + 1`
of them at least.
-/

namespace EventQueue.Broker

open Transition (Run exec run_of_exec)

/-- The failed deliveries that a copy descends from, by their places in the history, oldest
first. -/
inductive Lineage : List Event → Message → List ℕ → Prop
  /-- A copy without failures was published, replayed, or dead-lettered. -/
  | born {trace : List Event} {m : Message} (hcount : m.retry_count = 0)
      (hborn : .enqueued m ∈ trace ∨ .deadLettered m ∈ trace) : Lineage trace m []
  /-- A copy that went back on the queue has those of the copy that was delivered, and the failure
  of the delivery. -/
  | retry {before after : List Event} {key : DeliveryKey} {entry : InFlight} {past : List ℕ}
      (hcount : entry.retry_count = entry.msg.retry_count)
      (hpast : Lineage before entry.msg past) :
      Lineage (before ++ .failed key entry :: after) entry.requeueMsg (past ++ [before.length])

/-- The event of a failed delivery of a message under a topic. -/
def Event.failsUnder (msg_id : UInt64) (topic : Bytes) : Event → Bool
  | .failed _ entry => entry.msg.msg_id = msg_id ∧ entry.msg.topic = topic
  | _ => false

namespace Lineage

variable {events events' : List Event} {m : Message} {past : List ℕ}

/-- More history keeps a lineage. -/
theorem mono (h : Lineage events m past) (hsub : events <+: events') : Lineage events' m past := by
  obtain ⟨more, rfl⟩ := hsub
  cases h with
  | born hcount hborn =>
    exact .born hcount (hborn.imp (List.mem_append_left _) (List.mem_append_left _))
  | retry hcount hpast =>
    rw [List.append_assoc, List.cons_append]
    exact .retry hcount hpast

/-- There are as many failures as the copy's count says. -/
theorem length_eq (h : Lineage events m past) : (past.length : ℤ) = m.retry_count := by
  induction h with
  | born hcount _ => simp [hcount]
  | retry hcount _ ih => simp [InFlight.requeueMsg, hcount, ih]

/-- They are failed deliveries of the message under the copy's topic. -/
theorem exists_failed (h : Lineage events m past) {p : ℕ} (hp : p ∈ past) :
    ∃ key entry, events[p]? = some (.failed key entry) ∧ entry.msg.msg_id = m.msg_id ∧
      entry.msg.topic = m.topic := by
  induction h with
  | born => cases hp
  | @retry before after key entry past hcount hpast ih =>
    rcases List.mem_append.mp hp with hp | hp
    · obtain ⟨key', entry', hfailed, hsame⟩ := ih hp
      have hlt : p < before.length := (List.getElem?_eq_some_iff.mp hfailed).1
      exact ⟨key', entry', (List.getElem?_append_left hlt).trans hfailed, hsame⟩
    · obtain rfl := List.mem_singleton.mp hp
      exact ⟨key, entry, by simp, rfl, rfl⟩

/-- They lie in the history, one after the other. -/
theorem pairwise_lt (h : Lineage events m past) : past.Pairwise (· < ·) := by
  induction h with
  | born => exact List.Pairwise.nil
  | @retry before after key entry past hcount hpast ih =>
    refine List.pairwise_append.mpr ⟨ih, List.pairwise_singleton _ _, fun p hp q hq => ?_⟩
    obtain rfl := List.mem_singleton.mp hq
    -- An earlier failure lies in the history before the last one.
    obtain ⟨key', entry', hfailed, -⟩ := hpast.exists_failed hp
    exact (List.getElem?_eq_some_iff.mp hfailed).1

/-- The history has at least as many failures of the message under the copy's topic. -/
theorem le_countP (h : Lineage events m past) :
    m.retry_count ≤ events.countP (Event.failsUnder m.msg_id m.topic) := by
  induction h with
  | born hcount _ => rw [hcount]; exact Int.natCast_nonneg _
  | @retry before after key entry past hcount hpast ih =>
    have hfails : Event.failsUnder entry.msg.msg_id entry.msg.topic (.failed key entry) = true := by
      simp [Event.failsUnder]
    show entry.retry_count + 1 ≤
      ((before ++ .failed key entry :: after).countP
        (Event.failsUnder entry.msg.msg_id entry.msg.topic) : ℤ)
    rw [List.countP_append, List.countP_cons_of_pos hfails, hcount]
    push_cast
    omega

end Lineage

/-- Every dead letter comes after `max_retries + 1` failed deliveries of its message, under the
topic that it was dead-lettered from, at least. -/
def NoEarlyLetter (max_retries : ℤ) (trace : List Event) : Prop :=
  ∀ before m, before ++ [.deadLettered m] <+: trace →
    ∃ topic, m.topic = dlqPrefix ++ topic ∧
      max_retries + 1 ≤ before.countP (Event.failsUnder m.msg_id topic)

/-- An event that is no dead letter makes none early. -/
theorem NoEarlyLetter.concat {max_retries : ℤ} {trace : List Event} {x : Event}
    (h : NoEarlyLetter max_retries trace) (hx : ∀ m, x ≠ .deadLettered m) :
    NoEarlyLetter max_retries (trace ++ [x]) := by
  intro before m hm
  rcases List.prefix_concat_iff.mp hm with heq | hm
  · have hlast := (List.append_inj' heq rfl).2
    exact absurd (List.singleton_inj.mp hlast).symm (hx m)
  · exact h before m hm

namespace Flow

variable {e : Env} {f g : Flow} {max_retries : ℤ}

/-- The invariant. -/
structure Descended (max_retries : ℤ) (f : Flow) : Prop where
  /-- Deliveries are filed with their message's count. -/
  filed : f.Filed
  /-- Every copy's count is within the budget. -/
  range : f.Forall fun m => 0 ≤ m.retry_count ∧ m.retry_count ≤ max_retries
  /-- Every copy has a lineage. -/
  lineage : f.Forall fun m => ∃ past, Lineage f.trace m past
  /-- No dead letter is early. -/
  letters : NoEarlyLetter max_retries f.trace

/-- A move makes no dead letter early. -/
theorem Descended.letters_move (h : f.Descended e.max_retries) (hmove : Move e f g) :
    NoEarlyLetter e.max_retries g.trace := by
  cases hmove with
  | stay | ack | pop | sendGone | logPop => exact h.letters
  | note x hx =>
    refine h.letters.concat fun m heq => ?_
    subst heq
    cases hx
  | enqueue | drop | route | track | sendWritten | republish => exact h.letters.concat (by simp)
  | requeue key entry hkey hentry hretry =>
    -- The failure comes first, then what it leads to.
    have hfailed := h.letters.concat (x := .failed key entry) (by simp)
    have hrequeued := hfailed.concat (x := .requeued entry.requeueMsg) (by simp)
    rwa [List.append_assoc] at hrequeued
  | deadLetter key entry hkey hentry hretry =>
    have hfailed := h.letters.concat (x := .failed key entry) (by simp)
    intro before m hm
    have hm : before ++ [.deadLettered m] <+:
        (f.trace ++ [.failed key entry]) ++ [.deadLettered entry.dlqMsg] := by
      rwa [List.append_assoc]
    rcases List.prefix_concat_iff.mp hm with heq | hm
    · -- the new one: the delivery that fails comes on top of those behind its copy
      obtain ⟨rfl, hlast⟩ := List.append_inj' heq rfl
      obtain rfl : m = entry.dlqMsg := by simpa using hlast
      refine ⟨entry.msg.topic, rfl, ?_⟩
      obtain ⟨past, hpast⟩ := h.lineage.inFlight key entry hentry
      have hbehind := hpast.le_countP
      have hcount := (h.filed key entry hentry).2
      have hfails :
          Event.failsUnder entry.msg.msg_id entry.msg.topic (.failed key entry) = true := by
        simp [Event.failsUnder]
      show _ ≤ ((f.trace ++ [Event.failed key entry]).countP
        (Event.failsUnder entry.msg.msg_id entry.msg.topic) : ℤ)
      rw [List.countP_append, List.countP_cons_of_pos hfails, List.countP_nil]
      push_cast
      omega
    · exact hfailed before m hm

/-- A move keeps the invariant, when new messages have no failure behind them. -/
theorem Descended.move (h : f.Descended e.max_retries) (hmax : 0 ≤ e.max_retries)
    (hoffers : ∀ m, e.offers m → m.retry_count = 0) (hmove : Move e f g) :
    g.Descended e.max_retries where
  filed := h.filed.move hmove
  range := by
    refine h.range.move h.filed hmove (fun m hm _ => ?_) (fun m hm hretry => ?_) fun m hm _ => ?_
    · rw [hoffers m hm]
      exact ⟨le_rfl, hmax⟩
    · exact ⟨by simp only; omega, by simp only; omega⟩
    · exact ⟨le_rfl, hmax⟩
  lineage := by
    have hold : f.Forall fun m => ∃ past, Lineage g.trace m past :=
      h.lineage.imp fun m ⟨past, hpast⟩ => ⟨past, hpast.mono hmove.trace_extends⟩
    -- A new message and a dead letter start without a failure; a requeued copy has one more.
    refine hold.move_of_fails hmove (fun m hm henq => ?_) (fun key entry _ hentry _ htrace => ?_)
      fun key entry _ hentry _ htrace => ?_
    · exact ⟨[], .born (hoffers m hm) (.inl henq)⟩
    · obtain ⟨past, hpast⟩ := h.lineage.inFlight key entry hentry
      rw [htrace]
      exact ⟨_, .retry (h.filed key entry hentry).2 hpast⟩
    · exact ⟨[], .born rfl (.inr (by simp [htrace]))⟩
  letters := h.letters_move hmove

end Flow

/-! ## Runs of the broker -/

variable {cfg : Config} {s t : State} {a : Action} {as : List Action} {file : Bytes}
  {order : List Message} {m : Message}

/-- The invariant holds after a start. -/
theorem descended_of_start (hmax : 0 ≤ cfg.max_retries)
    (h : State.start cfg file order = some s) : s.flow.Descended cfg.max_retries := by
  have hretry : ∀ m ∈ State.replayed order, m.retry_count = 0 := fun m hm =>
    (logged_of_replayed h hm).2.2
  rw [flow_of_start h]
  generalize State.replayed order = ms at hretry
  refine ⟨by simp [Flow.Filed], ?_, ?_, ?_⟩
  · constructor <;> simp +contextual [hretry, hmax]
  · refine ⟨fun m hm => ⟨[], .born (hretry m hm) (.inl (by simpa using hm))⟩, ?_, ?_, ?_, ?_⟩ <;>
      simp
  · intro before m hm
    have hmem : .deadLettered m ∈ ms.map Event.enqueued := hm.subset (by simp)
    simp at hmem

/-- A copy that the broker holds: in the queue, or in flight. -/
def State.holds (s : State) (m : Message) : Prop :=
  m ∈ s.main_queue.queue ∨ ∃ key entry, s.engine.in_flight.lookup key = some entry ∧ entry.msg = m

/-- In every run, on any log: every copy in the queue or in flight carries a count between zero and
`max_retries`, and descends from exactly so many failed deliveries of its message under its topic;
and every dead letter comes after `max_retries + 1` of them at least. -/
theorem never_dead_lettered_early (hmax : 0 ≤ cfg.max_retries)
    (hstart : State.start cfg file order = some s) (hexec : exec (State.step cfg) s as = some t) :
    (∀ m, t.holds m → 0 ≤ m.retry_count ∧ m.retry_count ≤ cfg.max_retries ∧
      ∃ past, Lineage t.trace m past ∧ (past.length : ℤ) = m.retry_count ∧ past.Pairwise (· < ·) ∧
        ∀ p ∈ past, ∃ key entry, t.trace[p]? = some (.failed key entry) ∧
          entry.msg.msg_id = m.msg_id ∧ entry.msg.topic = m.topic) ∧
    (∀ key entry, t.engine.in_flight.lookup key = some entry →
      entry.retry_count = entry.msg.retry_count) ∧
    NoEarlyLetter cfg.max_retries t.trace := by
  -- The invariant of the copies goes with the messages that are not queued yet.
  have hinv : t.flow.Descended cfg.max_retries ∧ ∀ m, t.Staged m → m.retry_count = 0 := by
    refine (run_of_exec hexec).invariant (I := fun s => s.flow.Descended cfg.max_retries ∧
      ∀ m, s.Staged m → m.retry_count = 0) (fun s a t hs _ h => ⟨?_, ?_⟩) ⟨?_, ?_⟩
    · exact hs.1.move (e := s.env cfg a) hmax (fun m hm => hs.2 m (staged_of_offered hm))
        (step_move h)
    · exact staged_retry_count h hs.2
    · exact descended_of_start hmax hstart
    · exact fun m hm => absurd hm (not_staged_of_start hstart m)
  obtain ⟨⟨hfiled, hrange, hlineage, hletters⟩, -⟩ := hinv
  refine ⟨fun m hm => ?_, fun key entry hentry => (hfiled key entry hentry).2, hletters⟩
  obtain ⟨⟨hnonneg, hle⟩, past, hpast⟩ :
      (0 ≤ m.retry_count ∧ m.retry_count ≤ cfg.max_retries) ∧ ∃ past, Lineage t.trace m past := by
    rcases hm with hm | ⟨key, entry, hentry, rfl⟩
    · exact ⟨hrange.queue m hm, hlineage.queue m hm⟩
    · exact ⟨hrange.inFlight key entry hentry, hlineage.inFlight key entry hentry⟩
  exact ⟨hnonneg, hle, past, hpast, hpast.length_eq, hpast.pairwise_lt, fun p hp =>
    hpast.exists_failed hp⟩

/-- A message is delivered, refused, and delivered again. -/
def refusedOnce : List Action :=
  [.accept 5, .accept 6, .frame 0 0x02 0 [0, 1, 0x74, 0, 0], .frame 1 0x01 0 [0, 1, 0x74],
    .client 1, .client 1, .pop, .route [⟨[0x74], ascii "__unique_5", 5⟩], .track 0, .send,
    .frame 0 0x04 1 [], .client 0, .client 0, .pop, .route [⟨[0x74], ascii "__unique_5", 5⟩],
    .track 0]

/-- The copy in flight then descends from one failed delivery. -/
theorem never_dead_lettered_early_refusedOnce :
    ∃ t, exec (State.step ⟨4, 3, 5000⟩) (State.init ⟨4, 3, 5000⟩) refusedOnce = some t ∧
      ∃ past, Lineage t.trace ⟨1, [0x74], [], 1, 0⟩ past ∧ (past.length : ℤ) = 1 := by
  obtain ⟨t, ht, hend⟩ := (Option.any_eq_true _ _).mp
    (show (exec (State.step ⟨4, 3, 5000⟩) (State.init ⟨4, 3, 5000⟩) refusedOnce).any (fun t =>
      (t.engine.in_flight.lookup (1, 5)).map InFlight.msg = some ⟨1, [0x74], [], 1, 0⟩) = true
      by decide)
  obtain ⟨entry, hentry, hmsg⟩ := Option.map_eq_some_iff.mp (of_decide_eq_true hend)
  obtain ⟨hcopies, -, -⟩ :=
    never_dead_lettered_early (by decide) (State.start_nil ⟨4, 3, 5000⟩) ht
  obtain ⟨-, -, past, hpast, hlength, -⟩ := hcopies _ (.inr ⟨_, entry, hentry, hmsg⟩)
  exact ⟨t, ht, past, hpast, hlength⟩

end EventQueue.Broker
