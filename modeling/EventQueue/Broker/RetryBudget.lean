import EventQueue.Broker.Ledger
import EventQueue.Lib.Counting

/-!
# The retry budget

A message has `max_retries + 1` attempts: its copies carry the number of failures behind them, and a
delivery that fails with `max_retries` behind it is dead-lettered. The budget is per subscription
and topic, and it is kept in every run in which no two failed deliveries of a message under one
topic carry the same count. `two_consumers_fail` is a run in which they do: two subscribers refuse
the same copy, each refusal puts a copy of its own on the queue, and each of those copies goes to
both again.

The proof follows the ledger. The counts of the copies that are pushed on the main queue are
distinct: the first comes from the one time that the message was enqueued or republished, and every
other one from a failure with the count before it. What is routed is a prefix of what is pushed, a
subscription is one target of a routed copy at most, and the counts lie between zero and
`max_retries`.
-/

namespace EventQueue.Broker

open TopicRouter (Target)
open Transition (Run exec execChecked run_of_execChecked)

/-- The number of failures behind a copy, when it is a copy of the given message under the given
topic. -/
def Message.level (msg_id : UInt64) (topic : Bytes) (m : Message) : Option ℤ :=
  if m.msg_id = msg_id ∧ m.topic = topic then some m.retry_count else none

/-- What tells two failed deliveries apart: the message, the topic, and the number of failures
before. -/
def InFlight.failure (entry : InFlight) : UInt64 × Bytes × ℤ :=
  (entry.msg.msg_id, entry.msg.topic, entry.retry_count)

/-- A message of the ledger comes from one that was enqueued under the same identifier, and its
topic is no shorter. -/
def Descends (trace : List Event) (m : Message) : Prop :=
  ∃ m₀, .enqueued m₀ ∈ trace ∧ m₀.msg_id = m.msg_id ∧ m₀.topic.length ≤ m.topic.length

/-- More history keeps a message's origin. -/
theorem Descends.mono {trace trace' : List Event} {m : Message} (h : Descends trace m)
    (hsub : trace <+: trace') : Descends trace' m := by
  obtain ⟨m₀, hm₀, h⟩ := h
  exact ⟨m₀, hsub.subset hm₀, h⟩

/-- The identifiers under which messages were enqueued. -/
def enqueuedIds (trace : List Event) : List UInt64 :=
  (trace.filterMap Event.enqueuedMsg).map Message.msg_id

/-- The event of a message that is sent under a topic to a subscription. -/
def Event.delivers (msg_id : UInt64) (topic : Bytes) (slot : Bytes × Bytes × Option ClientId) :
    Event → Bool
  | .dispatched m t => m.msg_id = msg_id ∧ m.topic = topic ∧ t.slot = slot
  | _ => false

/-- The event of a message that is pushed on the dead-letter queue from a topic. -/
def Event.buries (msg_id : UInt64) (topic : Bytes) : Event → Bool
  | .deadLettered m => m.msg_id = msg_id ∧ m.topic = dlqPrefix ++ topic
  | _ => false

namespace Flow

variable {e : Env} {f g : Flow} {msg_id : UInt64} {topic : Bytes} {max_retries : ℤ}

/-! ## The invariant -/

/-- The invariant. -/
structure Budgeted (max_retries : ℤ) (f : Flow) : Prop where
  /-- Deliveries are filed under their message and client. -/
  filed : f.Filed
  /-- The ledger is balanced. -/
  ledger : f.Ledger max_retries
  /-- Every copy's count is within the budget. -/
  range : f.Forall fun m => 0 ≤ m.retry_count ∧ m.retry_count ≤ max_retries
  /-- Every copy comes from a message that was enqueued. -/
  descends : f.Forall (Descends f.trace)
  /-- A message is enqueued without a failure behind it. -/
  enqueued : ∀ m, .enqueued m ∈ f.trace → m.retry_count = 0
  /-- So much is known of a failed delivery. -/
  failed : ∀ entry ∈ f.trace.filterMap Event.failedEntry,
    entry.retry_count = entry.msg.retry_count ∧ 0 ≤ entry.retry_count ∧
      entry.retry_count ≤ max_retries ∧ Descends f.trace entry.msg
  /-- No two failed deliveries are alike. -/
  once : ((f.trace.filterMap Event.failedEntry).map InFlight.failure).Nodup
  /-- A routed message goes to each subscription once. -/
  routed : ∀ m ts, .routed m ts ∈ f.trace → (ts.map Target.slot).Nodup

/-- What the invariant needs of the environment of a move. -/
structure Spends (e : Env) (f : Flow) : Prop where
  /-- A new message has no failure behind it. -/
  offers : ∀ m, e.offers m → m.retry_count = 0
  /-- A message has each subscription as a target once. -/
  targets : ∀ topic, ((e.targets topic).map Target.slot).Nodup
  /-- No delivery has failed like the one that is about to. -/
  fails : ∀ key entry, e.fails key → f.inFlight key = some entry →
    entry.failure ∉ (f.trace.filterMap Event.failedEntry).map InFlight.failure

/-- A move keeps the invariant. -/
theorem Budgeted.move (h : f.Budgeted e.max_retries) (hmax : 0 ≤ e.max_retries) (he : Spends e f)
    (hmove : Move e f g) : g.Budgeted e.max_retries where
  filed := h.filed.move hmove
  ledger := h.ledger.move hmove
  range := by
    refine h.range.move h.filed hmove (fun m hm _ => ?_) (fun m hm hretry => ?_) fun m hm _ => ?_
    · rw [he.offers m hm]
      exact ⟨le_rfl, hmax⟩
    · exact ⟨by simp only; omega, by simp only; omega⟩
    · exact ⟨le_rfl, hmax⟩
  descends := by
    have hold := h.descends.imp fun m hm => hm.mono hmove.trace_extends
    refine hold.move h.filed hmove (fun m _ hm => ⟨m, hm, rfl, le_rfl⟩) (fun m hm _ => hm) ?_
    rintro m ⟨m₀, hm₀, hid, hlen⟩ -
    refine ⟨m₀, hm₀, hid, ?_⟩
    rw [List.length_append]
    omega
  enqueued m hm := by
    rcases hmove.enqueued_cases hm with hm | hm
    · exact h.enqueued m hm
    · exact he.offers m hm
  failed entry hentry := by
    -- The failures before, and the one that the move adds, if any.
    have hold : ∀ entry ∈ f.trace.filterMap Event.failedEntry,
        entry.retry_count = entry.msg.retry_count ∧ 0 ≤ entry.retry_count ∧
          entry.retry_count ≤ e.max_retries ∧ Descends g.trace entry.msg := by
      intro entry hentry
      obtain ⟨hcount, hnonneg, hle, hdescends⟩ := h.failed entry hentry
      exact ⟨hcount, hnonneg, hle, hdescends.mono hmove.trace_extends⟩
    rcases hmove.failed_cases with heq | ⟨key, new, hkey, hnew, heq⟩
    · exact hold entry (heq ▸ hentry)
    · rcases List.mem_append.mp (heq ▸ hentry) with hentry | hentry
      · exact hold entry hentry
      · obtain rfl : entry = new := by simpa using hentry
        have hcount := (h.filed key entry hnew).2
        have hrange := h.range.inFlight key entry hnew
        exact ⟨hcount, hcount ▸ hrange.1, hcount ▸ hrange.2,
          (h.descends.inFlight key entry hnew).mono hmove.trace_extends⟩
  once := by
    rcases hmove.failed_cases with heq | ⟨key, new, hkey, hnew, heq⟩
    · exact heq ▸ h.once
    · rw [heq, List.map_append, List.nodup_append']
      exact ⟨h.once, List.nodup_singleton _,
        List.disjoint_singleton.mpr (he.fails key new hkey hnew)⟩
  routed m ts hm := by
    rcases hmove.routed_cases hm with hm | hperm
    · exact h.routed m ts hm
    · exact (hperm.map _).nodup_iff.mpr (he.targets m.topic)

/-! ## Counts of the pushed copies -/

/-- The pushes are those of the three kinds. -/
theorem count_pushed (trace : List Event) (p : Message → Option ℤ) (r : ℤ) :
    ((trace.filterMap Event.pushedMsg).filterMap p).count r =
      ((trace.filterMap Event.enqueuedMsg).filterMap p).count r +
      ((trace.filterMap Event.requeuedMsg).filterMap p).count r +
      ((trace.filterMap Event.republishedMsg).filterMap p).count r := by
  induction trace with
  | nil => simp
  | cons x trace ih =>
    cases x with
    | enqueued m | requeued m | republished m =>
      simp only [filterMap_event, Event.pushedMsg, Event.enqueuedMsg, Event.requeuedMsg,
        Event.republishedMsg, Option.toList_some, Option.toList_none, List.nil_append,
        List.filterMap_append, List.count_append, ih]
      omega
    | _ => exact ih

/-- The failures of a message under a topic carry distinct counts. -/
theorem Budgeted.nodup_failed (h : f.Budgeted max_retries) :
    ((f.trace.filterMap Event.failedEntry).filterMap fun entry =>
      if entry.msg.msg_id = msg_id ∧ entry.msg.topic = topic then some entry.retry_count
      else none).Nodup := by
  have hinj : ∀ a a' : UInt64 × Bytes × ℤ, ∀ r : ℤ,
      r ∈ (if a.1 = msg_id ∧ a.2.1 = topic then some a.2.2 else none) →
      r ∈ (if a'.1 = msg_id ∧ a'.2.1 = topic then some a'.2.2 else none) → a = a' := by
    rintro ⟨i, t, r⟩ ⟨i', t', r'⟩ x hx hx'
    simp only [Option.mem_def, Option.ite_none_right_eq_some, Option.some.injEq] at hx hx'
    obtain ⟨⟨rfl, rfl⟩, rfl⟩ := hx
    obtain ⟨⟨rfl, rfl⟩, rfl⟩ := hx'
    rfl
  have hnodup := h.once.filterMap hinj
  rwa [List.filterMap_map] at hnodup

/-- The copies that went back on the queue carry distinct counts, all between one and
`max_retries`. -/
theorem Budgeted.requeued_levels (h : f.Budgeted max_retries) (msg_id : UInt64) (topic : Bytes) :
    ((f.trace.filterMap Event.requeuedMsg).filterMap (Message.level msg_id topic)).Nodup ∧
      ∀ r ∈ (f.trace.filterMap Event.requeuedMsg).filterMap (Message.level msg_id topic),
        0 < r ∧ r ≤ max_retries := by
  rw [h.ledger.requeued, List.filterMap_filterMap]
  constructor
  · -- each is one more than the count of a failure
    refine List.Nodup.sublist (Counting.filterMap_sublist_filterMap (q := fun entry =>
      (if entry.msg.msg_id = msg_id ∧ entry.msg.topic = topic then some entry.retry_count
      else none).map (· + 1)) fun entry hentry => ?_) ?_
    · by_cases hretry : entry.retry_count < max_retries
      · refine .inr ?_
        rw [requeueOf_of_lt hretry, Option.bind_some, Message.level]
        split_ifs with hcopy <;> simp_all [InFlight.requeueMsg]
      · exact .inl (by simp [requeueOf_of_le (not_lt.mp hretry)])
    · rw [← List.map_filterMap]
      exact h.nodup_failed.map (add_left_injective 1)
  · intro r hr
    -- A failure that was requeued had a count from zero to one below the maximum.
    obtain ⟨entry, hentry, hlevel⟩ := List.mem_filterMap.mp hr
    obtain ⟨-, hnonneg, -⟩ := h.failed entry hentry
    by_cases hretry : entry.retry_count < max_retries
    · rw [requeueOf_of_lt hretry, Option.bind_some, Message.level] at hlevel
      split_ifs at hlevel
      obtain rfl : entry.retry_count + 1 = r := by simpa [InFlight.requeueMsg] using hlevel
      omega
    · simp [requeueOf_of_le (not_lt.mp hretry)] at hlevel

/-- A message is dead-lettered from a topic once at most, and its dead letter has no failure behind
it. -/
theorem Budgeted.deadLettered_levels (h : f.Budgeted max_retries) (msg_id : UInt64)
    (topic : Bytes) :
    ((f.trace.filterMap Event.deadLetteredMsg).filterMap (Message.level msg_id topic)).length ≤ 1 ∧
      ∀ r ∈ (f.trace.filterMap Event.deadLetteredMsg).filterMap (Message.level msg_id topic),
        r = 0 ∧ ∃ entry ∈ f.trace.filterMap Event.failedEntry,
          entry.msg.msg_id = msg_id ∧ dlqPrefix ++ entry.msg.topic = topic := by
  rw [h.ledger.deadLettered, List.filterMap_filterMap]
  -- A failure that was dead-lettered had used up its retries.
  have hlevel : ∀ entry ∈ f.trace.filterMap Event.failedEntry, ∀ r : ℤ,
      (deadLetterOf max_retries entry).bind (Message.level msg_id topic) = some r →
      r = 0 ∧ entry.retry_count = max_retries ∧ entry.msg.msg_id = msg_id ∧
        dlqPrefix ++ entry.msg.topic = topic := by
    intro entry hentry r hr
    obtain ⟨-, -, hmax, -⟩ := h.failed entry hentry
    by_cases hretry : entry.retry_count < max_retries
    · simp [deadLetterOf_of_lt hretry] at hr
    · rw [deadLetterOf_of_le (not_lt.mp hretry), Option.bind_some, Message.level] at hr
      split_ifs at hr with hcopy
      exact ⟨by simpa [InFlight.dlqMsg, eq_comm] using hr, by omega, hcopy.1, hcopy.2⟩
  constructor
  · -- the deliveries behind two such letters would have failed alike
    rw [List.length_filterMap_eq_countP, List.countP_eq_length_filter,
      ← List.length_map (f := InFlight.failure)]
    refine Counting.length_le_one_of_nodup (h.once.sublist (List.filter_sublist.map _)) ?_
    have hfailure : ∀ a ∈ ((f.trace.filterMap Event.failedEntry).filter fun entry =>
        ((deadLetterOf max_retries entry).bind (Message.level msg_id topic)).isSome).map
          InFlight.failure,
        a.1 = msg_id ∧ dlqPrefix ++ a.2.1 = topic ∧ a.2.2 = max_retries := by
      intro a ha
      obtain ⟨entry, hentry, rfl⟩ := List.mem_map.mp ha
      obtain ⟨hentry, hsome⟩ := List.mem_filter.mp hentry
      obtain ⟨r, hr⟩ := Option.isSome_iff_exists.mp hsome
      obtain ⟨-, hmax, hid, htopic⟩ := hlevel entry hentry r hr
      exact ⟨hid, htopic, hmax⟩
    intro a ha b hb
    obtain ⟨hid, htopic, hmax⟩ := hfailure a ha
    obtain ⟨hid', htopic', hmax'⟩ := hfailure b hb
    exact Prod.ext (hid.trans hid'.symm) (Prod.ext
      (List.append_cancel_left (htopic.trans htopic'.symm)) (hmax.trans hmax'.symm))
  · intro r hr
    obtain ⟨entry, hentry, hr⟩ := List.mem_filterMap.mp hr
    obtain ⟨hzero, -, hid, htopic⟩ := hlevel entry hentry r hr
    exact ⟨hzero, entry, hentry, hid, htopic⟩

/-- A message is enqueued once at most, when identifiers are distinct. -/
theorem Budgeted.enqueued_levels (h : f.Budgeted max_retries) (msg_id : UInt64) (topic : Bytes)
    (hids : (enqueuedIds f.trace).Nodup) :
    ((f.trace.filterMap Event.enqueuedMsg).filterMap (Message.level msg_id topic)).length ≤ 1 ∧
      ∀ r ∈ (f.trace.filterMap Event.enqueuedMsg).filterMap (Message.level msg_id topic),
        r = 0 ∧ ∃ m, .enqueued m ∈ f.trace ∧ m.msg_id = msg_id ∧ m.topic = topic := by
  constructor
  · rw [List.length_filterMap_eq_countP, List.countP_eq_length_filter,
      ← List.length_map (f := Message.msg_id)]
    refine Counting.length_le_one_of_nodup (hids.sublist (List.filter_sublist.map _)) ?_
    -- Two that are counted here have the same identifier.
    have hid : ∀ a ∈ ((f.trace.filterMap Event.enqueuedMsg).filter fun m =>
        (m.level msg_id topic).isSome).map Message.msg_id, a = msg_id := by
      intro a ha
      obtain ⟨m, hm, rfl⟩ := List.mem_map.mp ha
      have hsome := (List.mem_filter.mp hm).2
      unfold Message.level at hsome
      split_ifs at hsome with hcopy
      · exact hcopy.1
      · simp at hsome
    exact fun a ha b hb => (hid a ha).trans (hid b hb).symm
  · intro r hr
    obtain ⟨m, hm, hr⟩ := List.mem_filterMap.mp hr
    obtain ⟨x, hx, hxm⟩ := List.mem_filterMap.mp hm
    obtain rfl := Event.eq_enqueued hxm
    unfold Message.level at hr
    split_ifs at hr with hcopy
    obtain rfl := Option.some.inj hr
    exact ⟨h.enqueued m hx, m, hx, hcopy⟩

/-- Under the topic that it was enqueued with, no dead letter of a message is republished: its
topic is shorter than that of any of its dead letters. -/
theorem Budgeted.not_enqueued_of_letter (h : f.Budgeted max_retries)
    (hids : (enqueuedIds f.trace).Nodup) {m : Message} (hm : .enqueued m ∈ f.trace)
    {entry : InFlight} (hentry : entry ∈ f.trace.filterMap Event.failedEntry)
    (hid : entry.msg.msg_id = m.msg_id) : dlqPrefix ++ entry.msg.topic ≠ m.topic := by
  obtain ⟨-, -, -, m₀, hm₀, hid₀, hlen⟩ := h.failed entry hentry
  have hmem : ∀ m', .enqueued m' ∈ f.trace → m' ∈ f.trace.filterMap Event.enqueuedMsg :=
    fun m' hm' => List.mem_filterMap.mpr ⟨_, hm', rfl⟩
  obtain rfl : m₀ = m :=
    List.inj_on_of_nodup_map hids (hmem m₀ hm₀) (hmem m hm) (hid₀.trans hid)
  intro htopic
  have := congrArg List.length htopic
  rw [List.length_append, length_dlqPrefix] at this
  omega

/-- The copies of a message that are pushed on the main queue under a topic carry distinct counts,
all within the budget. -/
theorem Budgeted.pushed_levels (h : f.Budgeted max_retries) (msg_id : UInt64) (topic : Bytes)
    (hmax : 0 ≤ max_retries) (hids : (enqueuedIds f.trace).Nodup) :
    ((f.trace.filterMap Event.pushedMsg).filterMap (Message.level msg_id topic)).Nodup ∧
      ∀ r ∈ (f.trace.filterMap Event.pushedMsg).filterMap (Message.level msg_id topic),
        0 ≤ r ∧ r ≤ max_retries := by
  obtain ⟨henq, henq₀⟩ := h.enqueued_levels msg_id topic hids
  obtain ⟨hreq, hreq₀⟩ := h.requeued_levels msg_id topic
  obtain ⟨hdead, hdead₀⟩ := h.deadLettered_levels msg_id topic
  rw [h.ledger.republished, List.filterMap_append, List.length_append] at hdead
  rw [h.ledger.republished, List.filterMap_append] at hdead₀
  have hcount := count_pushed f.trace (Message.level msg_id topic)
  generalize (f.trace.filterMap Event.enqueuedMsg).filterMap (Message.level msg_id topic) = E at *
  generalize (f.trace.filterMap Event.requeuedMsg).filterMap (Message.level msg_id topic) = R at *
  generalize (f.trace.filterMap Event.republishedMsg).filterMap (Message.level msg_id topic) = D
    at *
  -- The message is enqueued or republished under the topic, not both.
  have hfirst : E.length + D.length ≤ 1 := by
    rcases List.eq_nil_or_concat E with rfl | ⟨E', x, rfl⟩
    · simp; omega
    · rcases List.eq_nil_or_concat D with rfl | ⟨D', y, rfl⟩
      · simpa using henq
      · obtain ⟨-, m, hm, hid, htopic⟩ := henq₀ x (by simp)
        obtain ⟨-, entry, hentry, hid', htopic'⟩ := hdead₀ y (by simp)
        exact absurd (htopic'.trans htopic.symm)
          (h.not_enqueued_of_letter hids hm hentry (hid'.trans hid.symm))
  have hzero : ∀ r, r ≠ 0 → E.count r = 0 ∧ D.count r = 0 := fun r hr =>
    ⟨List.count_eq_zero.mpr fun hmem => hr (henq₀ r hmem).1,
      List.count_eq_zero.mpr fun hmem => hr (hdead₀ r (List.mem_append_left _ hmem)).1⟩
  constructor
  · refine List.nodup_iff_count_le_one.mpr fun r => ?_
    rw [hcount r]
    by_cases hr : r = 0
    · subst hr
      have hR : R.count 0 = 0 := List.count_eq_zero.mpr fun hmem => (hreq₀ 0 hmem).1.false
      have hE := List.count_le_length (a := (0 : ℤ)) (l := E)
      have hD := List.count_le_length (a := (0 : ℤ)) (l := D)
      omega
    · have hR := List.nodup_iff_count_le_one.mp hreq r
      have := hzero r hr
      omega
  · intro r hr
    by_cases hr₀ : r = 0
    · subst hr₀
      exact ⟨le_rfl, hmax⟩
    · have hpos := List.count_pos_iff.mpr hr
      rw [hcount r, (hzero r hr₀).1, (hzero r hr₀).2] at hpos
      have hmem : r ∈ R := List.count_pos_iff.mp (by omega)
      exact ⟨(hreq₀ r hmem).1.le, (hreq₀ r hmem).2⟩

/-! ## From copies to deliveries -/

/-- A routed copy gives its count to a subscription once at most. -/
theorem filterMap_targets_sublist {m : Message} {ts : List Target}
    {slot : Bytes × Bytes × Option ClientId} (hnodup : (ts.map Target.slot).Nodup)
    (p : Message → Option ℤ) :
    ((ts.map (m, ·)).filterMap fun x => if x.2.slot = slot then p x.1 else none).Sublist
      (p m).toList := by
  cases hp : p m with
  | none => simp [hp]
  | some r =>
    have hreplicate : ∀ ts : List Target,
        ((ts.map (m, ·)).filterMap fun x => if x.2.slot = slot then p x.1 else none) =
          List.replicate ((ts.map Target.slot).count slot) r := by
      intro ts
      induction ts with
      | nil => simp
      | cons t ts ih =>
        by_cases ht : t.slot = slot
        · simpa [ht, hp, List.replicate_succ] using ih
        · simpa [ht] using ih
    rw [hreplicate, Option.toList_some, ← List.replicate_one]
    exact (List.replicate_sublist_replicate r).mpr (List.nodup_iff_count_le_one.mp hnodup slot)

/-- What a subscription is sent is among what is routed. -/
theorem fannedOut_sublist {trace : List Event} (slot : Bytes × Bytes × Option ClientId)
    (hrouted : ∀ m ts, .routed m ts ∈ trace → (ts.map Target.slot).Nodup)
    (p : Message → Option ℤ) :
    ((trace.flatMap Event.fannedOut).filterMap fun x =>
      if x.2.slot = slot then p x.1 else none).Sublist
      ((trace.filterMap Event.takenMsg).filterMap p) := by
  induction trace with
  | nil => simp
  | cons x trace ih =>
    have ih := ih fun m ts h => hrouted m ts (List.mem_cons_of_mem _ h)
    rw [List.flatMap_cons, List.filterMap_append, filterMap_event, List.filterMap_append]
    refine List.Sublist.append ?_ ih
    cases x with
    | routed m ts =>
      have hone : [m].filterMap p = (p m).toList := by cases hp : p m <;> simp [hp]
      rw [Event.fannedOut, Event.takenMsg, Option.toList_some, hone]
      exact filterMap_targets_sublist (hrouted m ts (by simp)) p
    | _ => simp

/-- The counts of what a subscription is sent are among those of the pushed copies. -/
theorem Budgeted.dispatched_levels (h : f.Budgeted max_retries)
    (slot : Bytes × Bytes × Option ClientId) (p : Message → Option ℤ) :
    ((f.trace.filterMap Event.dispatchedTo).filterMap fun x =>
      if x.2.slot = slot then p x.1 else none).Sublist
      ((f.trace.filterMap Event.pushedMsg).filterMap p) := by
  have hfanned := fannedOut_sublist slot h.routed p
  rw [h.ledger.fannedOut, List.filterMap_append] at hfanned
  rw [h.ledger.pushed, List.filterMap_append]
  exact ((List.sublist_append_left _ _).trans hfanned).trans (List.sublist_append_left _ _)

/-- The deliveries to a subscription, counted by their counts. -/
theorem countP_delivers (trace : List Event) (slot : Bytes × Bytes × Option ClientId) :
    trace.countP (Event.delivers msg_id topic slot) =
      ((trace.filterMap Event.dispatchedTo).filterMap fun x =>
        if x.2.slot = slot then x.1.level msg_id topic else none).length := by
  induction trace with
  | nil => rfl
  | cons x trace ih =>
    cases x with
    | dispatched m t =>
      by_cases hslot : t.slot = slot <;> by_cases hcopy : m.msg_id = msg_id ∧ m.topic = topic <;>
        simp_all [Event.delivers, Message.level]
    | _ => exact ih

/-- The dead letters of a message from a topic, counted by their counts. -/
theorem countP_buries (trace : List Event) :
    trace.countP (Event.buries msg_id topic) = ((trace.filterMap Event.deadLetteredMsg).filterMap
      (Message.level msg_id (dlqPrefix ++ topic))).length := by
  induction trace with
  | nil => rfl
  | cons x trace ih =>
    cases x with
    | deadLettered m =>
      by_cases hcopy : m.msg_id = msg_id ∧ m.topic = dlqPrefix ++ topic
      · have hlevel : m.level msg_id (dlqPrefix ++ topic) = some m.retry_count := if_pos hcopy
        simp [Event.buries, hcopy, ih, hlevel]
      · have hlevel : m.level msg_id (dlqPrefix ++ topic) = none := if_neg hcopy
        have hburies : Event.buries msg_id topic (.deadLettered m) = false := by
          simpa [Event.buries] using hcopy
        simp [hburies, ih, hlevel]
    | _ => exact ih

/-- The invariant bounds the deliveries and the dead letters. -/
theorem Budgeted.bounds (h : f.Budgeted max_retries) (hmax : 0 ≤ max_retries)
    (hids : (enqueuedIds f.trace).Nodup) (slot : Bytes × Bytes × Option ClientId) :
    (f.trace.countP (Event.delivers msg_id topic slot) : ℤ) ≤ max_retries + 1 ∧
      f.trace.countP (Event.buries msg_id topic) ≤ 1 := by
  obtain ⟨hnodup, hrange⟩ := h.pushed_levels msg_id topic hmax hids
  have hsub := h.dispatched_levels slot (Message.level msg_id topic)
  rw [countP_delivers, countP_buries]
  refine ⟨?_, (h.deadLettered_levels msg_id (dlqPrefix ++ topic)).1⟩
  exact Counting.length_le_of_nodup_range hmax (hnodup.sublist hsub) fun r hr =>
    hrange r (hsub.subset hr)

end Flow

/-! ## Runs of the broker -/

variable {cfg : Config} {s t : State} {a : Action} {as : List Action} {file : Bytes}
  {order : List Message}

/-- When a delivery fails, no delivery of the message under the same topic has failed with the same
number of failures behind it. -/
def failsOncePerLevel (s : State) (a : Action) : Bool :=
  match (s.failing a).bind fun key => s.engine.in_flight.lookup key with
  | none => true
  | some entry => entry.failure ∉ (s.trace.filterMap Event.failedEntry).map InFlight.failure

/-- The invariant holds after a start. -/
theorem budgeted_start (hmax : 0 ≤ cfg.max_retries) (h : State.start cfg file order = some s) :
    s.flow.Budgeted cfg.max_retries := by
  have hretry : ∀ m ∈ State.replayed order, m.retry_count = 0 := fun m hm =>
    (logged_of_replayed h hm).2.2
  rw [flow_of_start h]
  generalize State.replayed order = ms at hretry
  have hnone : (ms.map Event.enqueued).filterMap Event.failedEntry = [] :=
    Flow.filterMap_enqueued (fun _ => rfl) ms
  constructor
  · simp [Flow.Filed]
  · exact Flow.ledger_start _ _
  · constructor <;> simp +contextual [hretry, hmax]
  · constructor <;> simp
    exact fun m hm => ⟨m, by simpa using hm, rfl, le_rfl⟩
  · simpa using hretry
  · simp [hnone]
  · simp [hnone]
  · simp

/-- A step that repeats no failure keeps the invariant. -/
theorem budgeted_step (hmax : 0 ≤ cfg.max_retries) (hs : s.flow.Budgeted cfg.max_retries)
    (hstaged : ∀ m, s.Staged m → m.retry_count = 0) (hok : failsOncePerLevel s a = true)
    (h : s.step cfg a = some t) : t.flow.Budgeted cfg.max_retries := by
  refine hs.move (e := s.env cfg a) hmax ⟨fun m hm => ?_, ?_, fun key entry hkey hentry => ?_⟩
    (step_move h)
  · exact hstaged m (staged_of_offered hm)
  · exact fun topic => s.router.nodup_slots_targets topic
  · have hkey : s.failing a = some key := hkey
    have hentry : s.engine.in_flight.lookup key = some entry := hentry
    simp only [failsOncePerLevel, hkey, Option.bind_some, hentry] at hok
    exact of_decide_eq_true hok

/-- A message is sent under a topic to a subscription at most `max_retries + 1` times, and is pushed
on the dead-letter queue from that topic at most once: in every run, on any log, that enqueues
messages under distinct identifiers and in which no two failed deliveries of a message under one
topic carry the same count. -/
theorem retry_budget (hmax : 0 ≤ cfg.max_retries) (hstart : State.start cfg file order = some s)
    (hrun : Run (State.step cfg) (failsOncePerLevel · ·) s as t)
    (hids : (enqueuedIds t.trace).Nodup) (msg_id : UInt64) (topic : Bytes)
    (slot : Bytes × Bytes × Option ClientId) :
    (t.trace.countP (Event.delivers msg_id topic slot) : ℤ) ≤ cfg.max_retries + 1 ∧
      t.trace.countP (Event.buries msg_id topic) ≤ 1 := by
  have hinv : t.flow.Budgeted cfg.max_retries ∧ ∀ m, t.Staged m → m.retry_count = 0 := by
    refine hrun.invariant (I := fun s => s.flow.Budgeted cfg.max_retries ∧
      ∀ m, s.Staged m → m.retry_count = 0) (fun s a t hs hok h => ⟨?_, ?_⟩) ⟨?_, ?_⟩
    · exact budgeted_step hmax hs.1 hs.2 hok h
    · exact staged_retry_count h hs.2
    · exact budgeted_start hmax hstart
    · exact fun m hm => absurd hm (not_staged_of_start hstart m)
  exact hinv.1.bounds hmax hids slot

/-- Two clients subscribe to a topic, a third publishes on it, and the message is delivered to
both. -/
def deliveredToBoth : List Action :=
  [.accept 5, .accept 6, .accept 7, .frame 0 0x02 0 [0, 1, 0x74, 0, 0],
    .frame 2 0x02 0 [0, 1, 0x74, 0, 0], .frame 1 0x01 0 [0, 1, 0x74], .client 1, .client 1, .pop,
    .route [⟨[0x74], ascii "__unique_5", 5⟩, ⟨[0x74], ascii "__unique_7", 7⟩], .track 0, .send,
    .track 0, .send]

/-- The dispatcher takes a message and delivers it to both. -/
def redeliverToBoth : List Action :=
  [.pop, .route [⟨[0x74], ascii "__unique_5", 5⟩, ⟨[0x74], ascii "__unique_7", 7⟩], .track 0, .send,
    .track 0, .send]

/-- A connection refuses the first message. -/
def refuse (n : ℕ) : List Action := [.frame n 0x04 1 [], .client n, .client n]

/-- One of the two refuses the message, and the budget of the other is kept. -/
theorem retry_budget_one_refusal :
    ∃ t, Run (State.step ⟨4, 1, 5000⟩) (failsOncePerLevel · ·) (State.init ⟨4, 1, 5000⟩)
        (deliveredToBoth ++ refuse 0 ++ redeliverToBoth) t ∧ (enqueuedIds t.trace).Nodup ∧
      (t.trace.countP (Event.delivers 1 [0x74] ([0x74], ascii "__unique_7", some 7)) : ℤ) ≤ 2 ∧
        t.trace.countP (Event.buries 1 [0x74]) ≤ 1 := by
  obtain ⟨t, ht, hids⟩ := (Option.any_eq_true _ _).mp
    (show (execChecked (State.step ⟨4, 1, 5000⟩) (failsOncePerLevel · ·) (State.init ⟨4, 1, 5000⟩)
      (deliveredToBoth ++ refuse 0 ++ redeliverToBoth)).any
      (fun t => (enqueuedIds t.trace).Nodup) = true by decide)
  have hids := of_decide_eq_true hids
  exact ⟨t, run_of_execChecked ht, hids, retry_budget (by decide)
    (State.start_nil ⟨4, 1, 5000⟩) (run_of_execChecked ht) hids _ _ _⟩

/-- Both refuse the message: with one retry allowed, each is sent the message three times. -/
theorem two_consumers_fail :
    ∃ t, exec (State.step ⟨4, 1, 5000⟩) (State.init ⟨4, 1, 5000⟩)
        (deliveredToBoth ++ refuse 0 ++ refuse 2 ++ redeliverToBoth ++ redeliverToBoth) = some t ∧
      (enqueuedIds t.trace).Nodup ∧
      ¬(t.trace.countP (Event.delivers 1 [0x74] ([0x74], ascii "__unique_5", some 5)) : ℤ) ≤
        1 + 1 := by
  obtain ⟨t, ht, hend⟩ := (Option.any_eq_true _ _).mp
    (show (exec (State.step ⟨4, 1, 5000⟩) (State.init ⟨4, 1, 5000⟩)
      (deliveredToBoth ++ refuse 0 ++ refuse 2 ++ redeliverToBoth ++ redeliverToBoth)).any
      (fun t => (enqueuedIds t.trace).Nodup ∧
        t.trace.countP (Event.delivers 1 [0x74] ([0x74], ascii "__unique_5", some 5)) = 3) = true
      by decide)
  obtain ⟨hids, hcount⟩ := of_decide_eq_true hend
  exact ⟨t, ht, hids, by rw [hcount]; decide⟩

end EventQueue.Broker
