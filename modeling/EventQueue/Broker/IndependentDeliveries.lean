import EventQueue.Broker.Ledger

/-!
# Independent deliveries

Every delivery that the dispatcher tracks is acknowledged, requeued, dead-lettered, or in flight:
the account of a run. `in_flight_` is keyed by message and client "to track independent
deliveries", but `track` replaces the entry of a delivery of the same message to the same client,
which a client with two subscriptions has for every message that both of them match
(`one_client_two_patterns`). The delivery that was replaced is none of the four.

The account is a permutation of lists of keys, `step_account` is its entry for one step, and
`account` sums it over a run, with the replaced deliveries as the remainder. So the account balances
in exactly the runs in which no call of `track` finds an entry.
-/

namespace EventQueue.Broker

open TopicRouter (Target)
open Transition (Run exec observed observed_concat run_of_observed run_of_exec execChecked
  run_of_execChecked)

/-! ## What is counted -/

namespace Event

/-- The delivery that was tracked. -/
@[simp] def dispatchedKey : Event → Option DeliveryKey
  | .dispatched m t => some (m.msg_id, t.client_id)
  | _ => none

/-- The delivery that failed. -/
@[simp] def failedKey : Event → Option DeliveryKey
  | .failed key _ => some key
  | _ => none

end Event

/-- The deliveries that were tracked in a history. -/
def tracked (trace : List Event) : List DeliveryKey := trace.filterMap Event.dispatchedKey

/-- The deliveries that failed in a history. -/
def failed (trace : List Event) : List DeliveryKey := trace.filterMap Event.failedKey

/-- The messages that went back on `main_queue`. -/
def requeued (trace : List Event) : List Message := trace.filterMap Event.requeuedMsg

/-- The messages that went to `dlq`. -/
def deadLettered (trace : List Event) : List Message := trace.filterMap Event.deadLetteredMsg

namespace State

/-- The delivery that an action acknowledges with effect: `ack` finds its entry. -/
def effectiveAck (s : State) (a : Action) : Option DeliveryKey :=
  (s.acking a).filter fun key => (s.engine.in_flight.lookup key).isSome

/-- The delivery whose entry an action replaces: `track` finds one under the same key. -/
def overwriting (s : State) (a : Action) : Option DeliveryKey :=
  match a, s.dispatcher with
  | .track _, .tracking m t _ =>
    if (s.engine.in_flight.lookup (m.msg_id, t.client_id)).isSome then some (m.msg_id, t.client_id)
    else none
  | _, _ => none

end State

/-- The effective acknowledgements of a run. -/
def effectiveAcks (cfg : Config) (s : State) (as : List Action) : List DeliveryKey :=
  observed (State.step cfg) State.effectiveAck s as

/-- The account of a run balances. -/
structure Conserved (cfg : Config) (s : State) (as : List Action) (t : State) : Prop where
  /-- Every delivery that was tracked is acknowledged, requeued, dead-lettered, or in flight. -/
  total : (tracked t.trace).length = (effectiveAcks cfg s as).length + (requeued t.trace).length +
    (deadLettered t.trace).length + t.engine.in_flight.entries.length
  /-- So it is for the deliveries of one message to one client: an entry in flight stands for
  exactly one that is neither acknowledged nor failed, and an acknowledgement that finds it resolves
  that one. -/
  each : ∀ key, (tracked t.trace).count key = (effectiveAcks cfg s as).count key +
    (failed t.trace).count key + if (t.engine.in_flight.lookup key).isSome then 1 else 0

/-- When `track` is called for a message and a client, no delivery of the message to the client is
in flight. -/
def tracksUnused (s : State) (a : Action) : Prop := s.overwriting a = none

instance (s : State) (a : Action) : Decidable (tracksUnused s a) :=
  inferInstanceAs (Decidable (_ = _))

/-! ## One step -/

/-- What a step enters into the account. -/
structure Account (s : State) (a : Action) (t : State) (new lost : List DeliveryKey) : Prop where
  /-- The deliveries that it tracks. -/
  tracked : tracked t.trace = tracked s.trace ++ new
  /-- The deliveries that it fails. -/
  failed : failed t.trace = failed s.trace ++ lost
  /-- What fails is requeued or dead-lettered. -/
  settled : (requeued t.trace).length + (deadLettered t.trace).length =
    (requeued s.trace).length + (deadLettered s.trace).length + lost.length
  /-- What was in flight and what is new is acknowledged, failed, replaced, or in flight. -/
  balance : (s.engine.in_flight.keys ++ new).Perm ((s.effectiveAck a).toList ++ lost ++
    (s.overwriting a).toList ++ t.engine.in_flight.keys)

variable {cfg : Config} {s t : State} {a : Action} {as : List Action} {file : Bytes}
  {order : List Message}

/-- Only `track` replaces an entry. -/
theorem overwriting_eq_none (htrack : ∀ now, a ≠ .track now) : s.overwriting a = none := by
  unfold State.overwriting
  split
  · exact absurd rfl (htrack _)
  · rfl

/-- A step that touches no delivery, and records nothing about one. -/
theorem account_of_same (hack : s.acking a = none) (htrack : ∀ now, a ≠ .track now)
    (hkeys : t.engine.in_flight.keys = s.engine.in_flight.keys)
    (htracked : tracked t.trace = tracked s.trace) (hfailed : failed t.trace = failed s.trace)
    (hrequeued : requeued t.trace = requeued s.trace)
    (hdead : deadLettered t.trace = deadLettered s.trace) : Account s a t [] [] where
  tracked := by simpa using htracked
  failed := by simpa using hfailed
  settled := by simp [hrequeued, hdead]
  balance := by simp [State.effectiveAck, hack, overwriting_eq_none htrack, hkeys]

/-- A step that touches no delivery, and records events that are not about one. -/
theorem account_of_unseen {new : List Event} (hack : s.acking a = none)
    (htrack : ∀ now, a ≠ .track now) (hkeys : t.engine.in_flight.keys = s.engine.in_flight.keys)
    (htrace : t.trace = s.trace ++ new) (htracked : tracked new = []) (hfailed : failed new = [])
    (hrequeued : requeued new = []) (hdead : deadLettered new = []) : Account s a t [] [] := by
  refine account_of_same hack htrack hkeys ?_ ?_ ?_ ?_ <;> rw [htrace]
  · exact Flow.filterMap_append_unseen htracked
  · exact Flow.filterMap_append_unseen hfailed
  · exact Flow.filterMap_append_unseen hrequeued
  · exact Flow.filterMap_append_unseen hdead

/-- A step that fails a delivery. The caller may change the rest of the state as well. -/
theorem Fails.account {key : DeliveryKey} {u v : State} (hfail : Fails cfg u key v)
    (hack : s.acking a = none) (htrack : ∀ now, a ≠ .track now)
    (hflight : u.engine.in_flight = s.engine.in_flight) (htrace : u.trace = s.trace)
    (hengine : t.engine = v.engine) (hevents : t.trace = v.trace) : Account s a t [] [key] := by
  have hover := overwriting_eq_none (s := s) htrack
  cases hfail with
  | requeue entry main_queue hentry hretry hpush | deadLetter entry dlq hentry hretry hpush =>
    refine ⟨?_, ?_, ?_, ?_⟩
    · simp [hevents, htrace, EventQueue.Broker.tracked]
    · simp [hevents, htrace, EventQueue.Broker.failed]
    · simp [hevents, htrace, requeued, deadLettered]
      omega
    · rw [hflight] at hentry
      simpa [State.effectiveAck, hack, hover, hengine, hflight] using AList.keys_perm_erase hentry

/-- Every step balances. -/
theorem step_account (h : s.step cfg a = some t) : ∃ new lost, Account s a t new lost := by
  cases step_sound h with
  | ackEngine n c msg_id hn hpc hmu =>
    refine ⟨[], [], by simp, by simp, by simp, ?_⟩
    have hack : s.acking (.client n) = some (msg_id, c.sock) := by simp [State.acking, hn, hpc]
    have hover := overwriting_eq_none (s := s) (a := .client n) (by simp)
    cases hentry : s.engine.in_flight.lookup (msg_id, c.sock) with
    | none =>
      simp [State.effectiveAck, hack, Option.filter, hentry, hover, AckEngine.ack,
        AList.erase_of_lookup_eq_none hentry]
    | some entry =>
      simpa [State.effectiveAck, hack, Option.filter, hentry, hover, AckEngine.ack] using
        AList.keys_perm_erase hentry
  | track now m tgt todo hpc hmu =>
    refine ⟨[(m.msg_id, tgt.client_id)], [], by simp [tracked], by simp [failed],
      by simp [requeued, deadLettered], ?_⟩
    refine (List.perm_append_singleton _ _).trans ?_
    have hack : s.acking (.track now) = none := rfl
    cases hentry : s.engine.in_flight.lookup (m.msg_id, tgt.client_id) with
    | none =>
      have hkeys := AList.keys_insert_of_lookup_eq_none
        (⟨m, tgt.client_id, now + cfg.ack_timeout, m.retry_count⟩ : InFlight) hentry
      simp [State.effectiveAck, hack, hentry, State.overwriting, hpc, AckEngine.track, hkeys,
        -AList.keys_insert]
    | some entry =>
      simpa [State.effectiveAck, hack, hentry, State.overwriting, hpc, AckEngine.track] using
        AList.keys_perm_erase hentry
  | nackPush n c msg_id u hn hpc hfail =>
    exact ⟨_, _, hfail.account (by simp [State.acking, hn, hpc]) (by simp) rfl rfl rfl rfl⟩
  | disconnectPush n c closing key t hn hpc hkey hfail =>
    exact ⟨_, _, hfail.account (by simp [State.acking, hn, hpc]) (by simp) rfl rfl rfl rfl⟩
  | scanPush now deadline key rest entry t hpc hhead hnow hentry hdue hfail =>
    exact ⟨_, _, hfail.account rfl (by simp) rfl rfl rfl rfl⟩
  | publishAppend n c m hn hpc | publishPush n c m main_queue hn hpc | ackWal n c msg_id hn hpc
  | nackNone n c msg_id hn hpc | nackLock n c msg_id entry hn hpc | eraseClient n c hn hpc
  | unsubscribe n c closing hn hpc | disconnectLock n c closing hn hpc
  | disconnectDone n c closing hn hpc =>
    have hack : s.acking (.client n) = none := by simp [State.acking, hn, hpc]
    first
      | exact ⟨[], [], account_of_same hack (by simp) rfl rfl rfl rfl rfl⟩
      | exact ⟨[], [], account_of_unseen hack (by simp) rfl rfl rfl rfl rfl rfl⟩
  | _ =>
    first
      | exact ⟨[], [], account_of_same rfl (by simp) rfl rfl rfl rfl rfl⟩
      | exact ⟨[], [], account_of_unseen rfl (by simp) rfl rfl rfl rfl rfl rfl⟩

/-! ## A run -/

/-- What was tracked in a run is acknowledged, failed, replaced, or in flight, and what failed is
requeued or dead-lettered. -/
theorem account (hstart : State.start cfg file order = some s)
    (hrun : Run (State.step cfg) (fun _ _ => True) s as t) :
    (tracked t.trace).Perm (effectiveAcks cfg s as ++ failed t.trace ++
      observed (State.step cfg) State.overwriting s as ++ t.engine.in_flight.keys) ∧
      (failed t.trace).length = (requeued t.trace).length + (deadLettered t.trace).length := by
  induction hrun with
  | nil =>
    have hflow := flow_of_start hstart
    have htrace : s.trace = (State.replayed order).map .enqueued := congrArg Flow.trace hflow
    have hempty : s.engine.in_flight.keys = [] := by
      unfold State.start at hstart
      split_ifs at hstart
      obtain rfl := Option.some.inj hstart
      rfl
    simp [tracked, failed, requeued, deadLettered, htrace, hempty, effectiveAcks, observed,
      List.filterMap_map, Function.comp_def]
  | @snoc t u as a hrun _ hstep ih =>
    obtain ⟨hbalance, hsettled⟩ := ih
    obtain ⟨new, lost, hstepped⟩ := step_account hstep
    constructor
    · have hexec := hrun.exec_eq
      rw [effectiveAcks, observed_concat hexec, observed_concat hexec, hstepped.tracked,
        hstepped.failed, List.perm_iff_count]
      intro key
      have hcount := List.perm_iff_count.mp hbalance key
      have hnew := List.perm_iff_count.mp hstepped.balance key
      simp only [effectiveAcks, List.count_append] at hcount hnew ⊢
      omega
    · rw [hstepped.failed, List.length_append, hsettled, hstepped.settled]

/-- A key is in flight once or not at all. -/
theorem count_keys (m : AList fun _ : DeliveryKey => InFlight) (key : DeliveryKey) :
    m.keys.count key = if (m.lookup key).isSome then 1 else 0 := by
  split_ifs with h
  · exact List.count_eq_one_of_mem m.keys_nodup (AList.mem_keys.mp (AList.lookup_isSome.mp h))
  · rw [List.count_eq_zero]
    exact fun hmem => h (AList.lookup_isSome.mpr (AList.mem_keys.mpr hmem))

/-- Deliveries are tracked independently, in every run on any log, if and only if no call of `track`
in the run finds a delivery of the same message to the same client in flight. -/
theorem deliveries_conserved (hstart : State.start cfg file order = some s)
    (hrun : exec (State.step cfg) s as = some t) :
    Conserved cfg s as t ↔ Run (State.step cfg) tracksUnused s as t := by
  obtain ⟨hbalance, hsettled⟩ := account hstart (run_of_exec hrun)
  have hkeys : t.engine.in_flight.keys.length = t.engine.in_flight.entries.length :=
    List.length_map _
  constructor
  · intro h
    have hlength := hbalance.length_eq
    have htotal := h.total
    simp only [List.length_append] at hlength
    exact run_of_observed hrun (List.length_eq_zero_iff.mp (by omega))
  · intro h
    rw [Run.observed_eq_nil h, List.append_nil] at hbalance
    refine ⟨?_, fun key => ?_⟩
    · have hlength := hbalance.length_eq
      simp only [List.length_append] at hlength
      omega
    · rw [List.perm_iff_count.mp hbalance key, List.count_append, List.count_append, count_keys]

/-- Two clients subscribe to a topic, a third publishes on it, both are sent the message, one
acknowledges it, and the other refuses it and is sent it again. -/
def oneAcksOneRefuses : List Action :=
  [.accept 5, .accept 6, .accept 7, .frame 0 0x02 0 [0, 1, 0x74, 0, 0],
    .frame 2 0x02 0 [0, 1, 0x74, 0, 0], .frame 1 0x01 0 [0, 1, 0x74], .client 1, .client 1, .pop,
    .route [⟨[0x74], ascii "__unique_5", 5⟩, ⟨[0x74], ascii "__unique_7", 7⟩], .track 0, .send,
    .track 0, .send, .frame 0 0x03 1 [], .client 0, .client 0, .frame 2 0x04 1 [], .client 2,
    .client 2, .pop, .route [⟨[0x74], ascii "__unique_5", 5⟩, ⟨[0x74], ascii "__unique_7", 7⟩],
    .track 0, .send, .track 0]

/-- Four deliveries: one is acknowledged, one requeued, and two are in flight. -/
theorem deliveries_conserved_two_clients :
    ∃ t, exec (State.step ⟨4, 3, 5000⟩) (State.init ⟨4, 3, 5000⟩) oneAcksOneRefuses = some t ∧
      (tracked t.trace).length = 4 ∧ t.engine.in_flight.entries.length = 2 ∧
      Conserved ⟨4, 3, 5000⟩ (State.init ⟨4, 3, 5000⟩) oneAcksOneRefuses t := by
  obtain ⟨t, ht, hend⟩ := (Option.any_eq_true _ _).mp
    (show (execChecked (State.step ⟨4, 3, 5000⟩) tracksUnused (State.init ⟨4, 3, 5000⟩)
      oneAcksOneRefuses).any (fun t =>
        (tracked t.trace).length = 4 ∧ t.engine.in_flight.entries.length = 2) = true by decide)
  obtain ⟨htracked, hflight⟩ := of_decide_eq_true hend
  have hrun := run_of_execChecked ht
  exact ⟨t, hrun.exec_eq, htracked, hflight,
    (deliveries_conserved (State.start_nil _) hrun.exec_eq).mpr hrun⟩

/-- A client subscribes to a topic and to every topic, and acknowledges the message that it is sent
for both. -/
def subscribedTwice : List Action :=
  [.accept 5, .accept 6, .frame 0 0x02 0 [0, 1, 0x74, 0, 0], .frame 0 0x02 0 [0, 1, 0x2a, 0, 0],
    .frame 1 0x01 0 [0, 1, 0x74], .client 1, .client 1, .pop,
    .route [⟨[0x74], ascii "__unique_5", 5⟩, ⟨[0x2a], ascii "__unique_5", 5⟩], .track 0, .send,
    .track 0, .send, .frame 0 0x03 1 [], .client 0]

/-- Two deliveries are tracked under one key, and the one acknowledgement leaves nothing in flight:
the account does not balance. -/
theorem one_client_two_patterns :
    ∃ t, exec (State.step ⟨4, 3, 5000⟩) (State.init ⟨4, 3, 5000⟩) subscribedTwice = some t ∧
      tracked t.trace = [(1, 5), (1, 5)] ∧ t.engine.in_flight.entries.length = 0 ∧
      ¬Conserved ⟨4, 3, 5000⟩ (State.init ⟨4, 3, 5000⟩) subscribedTwice t := by
  obtain ⟨t, ht, hend⟩ := (Option.any_eq_true _ _).mp
    (show (exec (State.step ⟨4, 3, 5000⟩) (State.init ⟨4, 3, 5000⟩) subscribedTwice).any
      (fun t => tracked t.trace = [(1, 5), (1, 5)] ∧ t.engine.in_flight.entries.length = 0 ∧
        requeued t.trace = [] ∧ deadLettered t.trace = []) = true by decide)
  obtain ⟨htracked, hflight, hrequeued, hdead⟩ := of_decide_eq_true hend
  have hacks : effectiveAcks ⟨4, 3, 5000⟩ (State.init ⟨4, 3, 5000⟩) subscribedTwice = [(1, 5)] := by
    decide
  refine ⟨t, ht, htracked, hflight, fun h => ?_⟩
  have htotal := h.total
  rw [htracked, hacks, hrequeued, hdead, hflight] at htotal
  simp at htotal

end EventQueue.Broker
