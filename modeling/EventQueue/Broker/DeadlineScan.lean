import EventQueue.Broker.CircularWait
import Mathlib.Data.List.Sort

/-!
# The scan of the deadlines

`redelivery_loop` finds the deliveries that have timed out by the heap of deadlines, not by the map
of deliveries. The two are out of step: `ack`, `nack`, and `client_disconnected` touch only the map,
and a delivery that is tracked again has two entries in the heap. Here are the calls on the engine
with all their pushes (`call`), and one pass of the inner loop (`scan`).

The invariant that ties the heap to the map is `Heaped`: the heap is in order of time, and every
delivery has an entry in it that carries its own deadline. With it the pass removes the deliveries
whose deadline is not after `now`, each with one push, and nothing else (`scan_spec`). `scan_pass`
connects it to the broker: between the lock and the unlock of the scanner, whatever the other
threads do meanwhile, the engine goes through one `scan`.
-/

namespace EventQueue.Broker

namespace AckEngine

variable {e : AckEngine} {max_retries now ack_timeout : ℤ} {key : DeliveryKey} {entry : InFlight}

/-! ## The calls -/

/-- `nack`: what it pushes, and the engine without the delivery. -/
def nack (max_retries : ℤ) (e : AckEngine) (msg_id : UInt64) (id : ClientId) :
    AckEngine × List Outcome :=
  match e.in_flight.lookup (msg_id, id) with
  | none => (e, [])
  | some entry =>
    ({ e with in_flight := e.in_flight.erase (msg_id, id) }, [requeueOrDlq max_retries entry])

/-- The loop of `client_disconnected`, with a bound on its rounds. -/
def disconnectLoop (max_retries : ℤ) (id : ClientId) : ℕ → AckEngine → AckEngine × List Outcome
  | 0, e => (e, [])
  | fuel + 1, e =>
    match e.nextOf id with
    | none => (e, [])
    | some key =>
      -- Every round finds the next delivery and fails it, as `nack` does.
      let (e₁, outcomes) := nack max_retries e key.1 key.2
      let (e₂, outcomes') := disconnectLoop max_retries id fuel e₁
      (e₂, outcomes ++ outcomes')

/-- `client_disconnected`: every round erases an entry, so there are no more rounds than entries. -/
def clientDisconnected (max_retries : ℤ) (e : AckEngine) (id : ClientId) :
    AckEngine × List Outcome :=
  disconnectLoop max_retries id e.in_flight.entries.length e

/-- One pass of the inner loop of `redelivery_loop` at `now`, over what is left of the heap. -/
def scanLoop (max_retries now : ℤ) :
    List DeadlineEntry → (AList fun _ : DeliveryKey => InFlight) → AckEngine × List Outcome
  | [], in_flight => (⟨in_flight, []⟩, [])
  | (deadline, key) :: rest, in_flight =>
    -- The top of the heap is not due, and nothing behind it is.
    if now < deadline then (⟨in_flight, (deadline, key) :: rest⟩, [])
    else
      match in_flight.lookup key with
      -- The delivery was acknowledged or failed in the meantime.
      | none => scanLoop max_retries now rest in_flight
      | some entry =>
        -- It was tracked again, and has an entry of its own with the later deadline.
        if deadline < entry.deadline then scanLoop max_retries now rest in_flight
        else
          let (e, outcomes) := scanLoop max_retries now rest (in_flight.erase key)
          (e, requeueOrDlq max_retries entry :: outcomes)

/-- The pass over the whole heap. -/
def scan (max_retries now : ℤ) (e : AckEngine) : AckEngine × List Outcome :=
  scanLoop max_retries now e.deadlines e.in_flight

/-- A call on the engine. -/
inductive Call
  /-- `track(msg, subscriber_id)`, with the reading of the clock. -/
  | track (msg : Message) (subscriber_id : ClientId) (now : TimePoint)
  /-- `ack(msg_id, id)`. -/
  | ack (msg_id : UInt64) (id : ClientId)
  /-- `nack(msg_id, id)`. -/
  | nack (msg_id : UInt64) (id : ClientId)
  /-- `client_disconnected(id)`. -/
  | clientDisconnected (id : ClientId)
  /-- One pass of the scanner, with the reading of the clock. -/
  | scan (now : TimePoint)

/-- The engine after a call, with what the call has pushed. -/
def call (max_retries ack_timeout : ℤ) (e : AckEngine) : Call → AckEngine × List Outcome
  | .track msg subscriber_id now => (e.track msg subscriber_id now ack_timeout, [])
  | .ack msg_id id => (e.ack msg_id id, [])
  | .nack msg_id id => nack max_retries e msg_id id
  | .clientDisconnected id => clientDisconnected max_retries e id
  | .scan now => scan max_retries now e

/-- The engine after a history of calls. -/
def afterCalls (max_retries ack_timeout : ℤ) (calls : List Call) : AckEngine :=
  calls.foldl (fun e x => (call max_retries ack_timeout e x).1) empty

/-! ## The heap and the map -/

/-- The heap is in order of time, and every delivery has an entry there with its own deadline. -/
structure Heaped (deadlines : List DeadlineEntry)
    (in_flight : AList fun _ : DeliveryKey => InFlight) : Prop where
  /-- The earliest comes first. -/
  sorted : deadlines.Pairwise fun a b => a.1 ≤ b.1
  /-- No delivery is stranded. -/
  own : ∀ key entry, in_flight.lookup key = some entry → (entry.deadline, key) ∈ deadlines

/-- The heap stays in order when a deadline is put in. -/
theorem sorted_orderedInsert {deadlines : List DeadlineEntry} (d : DeadlineEntry)
    (h : deadlines.Pairwise fun a b => a.1 ≤ b.1) :
    (deadlines.orderedInsert deadlineLe d).Pairwise fun a b => a.1 ≤ b.1 := by
  induction deadlines with
  | nil => exact List.pairwise_singleton _ _
  | cons d' deadlines ih =>
    obtain ⟨hfirst, hrest⟩ := List.pairwise_cons.mp h
    rw [List.orderedInsert]
    split_ifs with hle
    · have hle : d.1 ≤ d'.1 := by
        rcases hle with hlt | ⟨heq, -⟩
        · exact hlt.le
        · exact heq.le
      refine List.pairwise_cons.mpr ⟨fun d'' hd'' => ?_, h⟩
      rcases List.mem_cons.mp hd'' with rfl | hd''
      · exact hle
      · exact hle.trans (hfirst d'' hd'')
    · have hle : d'.1 ≤ d.1 := by
        by_contra hlt
        exact hle (.inl (not_le.mp hlt))
      refine List.pairwise_cons.mpr ⟨fun d'' hd'' => ?_, ih hrest⟩
      -- What is left of the heap holds the new deadline and the old ones.
      rcases (List.mem_orderedInsert deadlineLe).mp hd'' with rfl | hd''
      · exact hle
      · exact hfirst d'' hd''

/-- Erasing a delivery strands no other. -/
theorem Heaped.erase {deadlines : List DeadlineEntry}
    {in_flight : AList fun _ : DeliveryKey => InFlight} (h : Heaped deadlines in_flight)
    (key : DeliveryKey) : Heaped deadlines (in_flight.erase key) := by
  refine ⟨h.sorted, fun k entry hk => h.own k entry ?_⟩
  by_cases heq : k = key
  · subst heq
    simp at hk
  · rwa [AList.lookup_erase_ne heq] at hk

/-- An entry of the heap whose delivery is gone, or has another deadline, is not needed. -/
theorem Heaped.skip {d : DeadlineEntry} {rest : List DeadlineEntry}
    {in_flight : AList fun _ : DeliveryKey => InFlight} (h : Heaped (d :: rest) in_flight)
    (hd : ∀ entry, in_flight.lookup d.2 = some entry → entry.deadline ≠ d.1) :
    Heaped rest in_flight := by
  refine ⟨h.sorted.of_cons, fun key entry hk => ?_⟩
  rcases List.mem_cons.mp (h.own key entry hk) with heq | hmem
  · obtain rfl : (entry.deadline, key) = d := heq
    exact absurd rfl (hd entry hk)
  · exact hmem

theorem Heaped.track (h : Heaped e.deadlines e.in_flight) (msg : Message) (id : ClientId)
    (now ack_timeout : ℤ) :
    Heaped (e.track msg id now ack_timeout).deadlines
      (e.track msg id now ack_timeout).in_flight := by
  refine ⟨sorted_orderedInsert _ h.sorted, fun key entry hk => ?_⟩
  refine (List.mem_orderedInsert deadlineLe).mpr ?_
  by_cases heq : key = (msg.msg_id, id)
  · subst heq
    obtain rfl : _ = entry := by simpa [AckEngine.track] using hk
    exact .inl rfl
  · refine .inr (h.own key entry ?_)
    rwa [AckEngine.track, AList.lookup_insert_ne heq] at hk

theorem Heaped.nack (h : Heaped e.deadlines e.in_flight) (max_retries : ℤ) (msg_id : UInt64)
    (id : ClientId) :
    Heaped (nack max_retries e msg_id id).1.deadlines
      (nack max_retries e msg_id id).1.in_flight := by
  unfold AckEngine.nack
  split
  · exact h
  · exact h.erase _

theorem Heaped.disconnectLoop (h : Heaped e.deadlines e.in_flight) (max_retries : ℤ)
    (id : ClientId) (fuel : ℕ) :
    Heaped (disconnectLoop max_retries id fuel e).1.deadlines
      (disconnectLoop max_retries id fuel e).1.in_flight := by
  induction fuel generalizing e with
  | zero => exact h
  | succ fuel ih =>
    unfold AckEngine.disconnectLoop
    split
    · exact h
    · exact ih (h.nack max_retries _ _)

/-- The bound on the rounds is enough: no delivery to the client is left. -/
theorem nextOf_disconnectLoop (max_retries : ℤ) (id : ClientId) {fuel : ℕ}
    (hfuel : e.in_flight.entries.length ≤ fuel) :
    (disconnectLoop max_retries id fuel e).1.nextOf id = none := by
  induction fuel generalizing e with
  | zero =>
    have hnil : e.in_flight.entries = [] := List.length_eq_zero_iff.mp (by omega)
    simp [AckEngine.disconnectLoop, nextOf, hnil, leastKey]
  | succ fuel ih =>
    unfold AckEngine.disconnectLoop
    split
    · assumption
    · rename_i key hkey
      obtain ⟨entry, hentry, -⟩ := nextOf_mem hkey
      -- A round that goes on erases the entry that it has found.
      have hlen := (AList.entries_perm_erase hentry).length_eq
      have herased : (nack max_retries e key.1 key.2).1.in_flight = e.in_flight.erase key := by
        simp [AckEngine.nack, hentry]
      refine ih ?_
      rw [herased]
      rw [List.length_cons] at hlen
      omega

/-! ## One pass -/

/-- The pass is a full scan: what is left are the deliveries whose deadline is after `now`, and
there is one push for each of the others. -/
structure FullScan (max_retries now : ℤ) (in_flight : AList fun _ : DeliveryKey => InFlight)
    (result : AckEngine × List Outcome) : Prop where
  /-- What is left. -/
  left : ∀ key, result.1.in_flight.lookup key =
    (in_flight.lookup key).filter fun entry => now < entry.deadline
  /-- What is pushed. -/
  pushed : result.2.Perm ((in_flight.entries.filter fun x => x.2.deadline ≤ now).map fun x =>
    requeueOrDlq max_retries x.2)
  /-- The heap and the map are still tied together. -/
  heaped : Heaped result.1.deadlines result.1.in_flight

/-- The loop is a full scan of what is left of the map. -/
theorem scanLoop_spec {deadlines : List DeadlineEntry}
    {in_flight : AList fun _ : DeliveryKey => InFlight} (max_retries now : ℤ)
    (h : Heaped deadlines in_flight) :
    FullScan max_retries now in_flight (scanLoop max_retries now deadlines in_flight) := by
  -- When every entry of the heap lies after `now`, so does every deadline.
  have hstop : ∀ {deadlines in_flight}, Heaped deadlines in_flight →
      (∀ d ∈ deadlines, now < d.1) →
        FullScan max_retries now in_flight (⟨in_flight, deadlines⟩, []) := by
    intro deadlines in_flight h hlater
    have hall : ∀ key entry, in_flight.lookup key = some entry → now < entry.deadline :=
      fun key entry hk => hlater _ (h.own key entry hk)
    refine ⟨fun key => ?_, ?_, h⟩
    · cases hk : in_flight.lookup key with
      | none => rfl
      | some entry => simp [Option.filter, hall key entry hk]
    · have hnone : (in_flight.entries.filter fun x => x.2.deadline ≤ now) = [] := by
        refine List.filter_eq_nil_iff.mpr fun x hx => ?_
        have := hall x.1 x.2 (AList.mem_entries_iff.mp hx)
        simpa using this
      rw [hnone]
      exact List.Perm.refl _
  -- The induction is on the heap, for any map that is tied to it: a push erases from the map.
  induction deadlines generalizing in_flight with
  | nil => exact hstop h (by simp)
  | cons d rest ih =>
    obtain ⟨deadline, key⟩ := d
    unfold scanLoop
    split_ifs with hnow
    · -- The pass ends at the first entry that lies after `now`.
      refine hstop h fun d hd => ?_
      rcases List.mem_cons.mp hd with rfl | hd
      · exact hnow
      · exact hnow.trans_le ((List.pairwise_cons.mp h.sorted).1 d hd)
    · cases hentry : in_flight.lookup key with
      -- An entry without a delivery is skipped, and one of an earlier deadline as well.
      | none => exact ih (h.skip fun entry hk => by simp [hentry] at hk)
      | some entry =>
        dsimp only
        split_ifs with hstale
        · refine ih (h.skip fun entry' hk => ?_)
          obtain rfl := Option.some.inj (hentry.symm.trans hk)
          exact hstale.ne'
        · -- the delivery has timed out
          have hdue : entry.deadline ≤ now := (not_lt.mp hstale).trans (not_lt.mp hnow)
          have hrest := ih ((h.erase key).skip fun entry' hk => by simp at hk)
          refine ⟨fun k => ?_, ?_, hrest.heaped⟩
          · rw [hrest.left k]
            by_cases heq : k = key
            · subst heq
              simp [hentry, Option.filter, hdue]
            · rw [AList.lookup_erase_ne heq]
          · have hperm := (AList.entries_perm_erase hentry).filter fun x => x.2.deadline ≤ now
            rw [List.filter_cons_of_pos (by simpa using hdue)] at hperm
            refine List.Perm.trans ?_ (hperm.map _).symm
            rw [List.map_cons]
            exact hrest.pushed.cons _

/-- A call keeps the heap and the map tied together. -/
theorem Heaped.call (h : Heaped e.deadlines e.in_flight) (max_retries ack_timeout : ℤ) (x : Call) :
    Heaped (call max_retries ack_timeout e x).1.deadlines
      (call max_retries ack_timeout e x).1.in_flight := by
  cases x with
  | track msg id now => exact h.track msg id now ack_timeout
  | ack msg_id id => exact h.erase (msg_id, id)
  | nack msg_id id => exact h.nack max_retries msg_id id
  | clientDisconnected id => exact h.disconnectLoop max_retries id _
  | scan now => exact (scanLoop_spec max_retries now h).heaped

/-- So does a history. -/
theorem heaped_afterCalls (max_retries ack_timeout : ℤ) (calls : List Call) :
    Heaped (afterCalls max_retries ack_timeout calls).deadlines
      (afterCalls max_retries ack_timeout calls).in_flight := by
  induction calls using List.reverseRecOn with
  | nil => exact ⟨List.Pairwise.nil, fun key entry h => by simp [afterCalls, empty] at h⟩
  | append_singleton calls x ih =>
    have hconcat : afterCalls max_retries ack_timeout (calls ++ [x]) =
        (call max_retries ack_timeout (afterCalls max_retries ack_timeout calls) x).1 := by
      simp [afterCalls]
    rw [hconcat]
    exact ih.call max_retries ack_timeout x

/-- After every history of calls, with any readings of the clock, a pass of the scanner at any time
leaves exactly the deliveries whose deadline is after it, pushes one message for each of the others,
as `requeue_or_dlq` decides, and nothing else; and every delivery has an entry in the heap that
carries its own deadline. -/
theorem scan_eq_full_scan (max_retries ack_timeout now : ℤ) (calls : List Call) :
    (∀ key,
      (scan max_retries now (afterCalls max_retries ack_timeout calls)).1.in_flight.lookup key =
      ((afterCalls max_retries ack_timeout calls).in_flight.lookup key).filter fun entry =>
        now < entry.deadline) ∧
    (scan max_retries now (afterCalls max_retries ack_timeout calls)).2.Perm
      (((afterCalls max_retries ack_timeout calls).in_flight.entries.filter fun x =>
        x.2.deadline ≤ now).map fun x => requeueOrDlq max_retries x.2) ∧
    ∀ key entry, (afterCalls max_retries ack_timeout calls).in_flight.lookup key = some entry →
      (entry.deadline, key) ∈ (afterCalls max_retries ack_timeout calls).deadlines := by
  have hheaped := heaped_afterCalls max_retries ack_timeout calls
  have hscan := scanLoop_spec max_retries now hheaped
  exact ⟨hscan.left, hscan.pushed, hheaped.own⟩

/-- A delivery that was tracked again, at a clock that went back, has two entries in the heap, and
the pass at its own deadline pushes it once. -/
example : (scan 3 150 (afterCalls 3 100
    [.track ⟨1, [0x74], [], 0, 0⟩ 5 100, .track ⟨1, [0x74], [], 1, 0⟩ 5 50])).2 =
    [.requeue ⟨1, [0x74], [], 2, 0⟩] := by decide

end AckEngine

/-! ## The pass in the broker -/

open Transition

variable {cfg : Config} {s t u : State} {a : Action} {as : List Action} {now : TimePoint}

/-- The push that an event of a failed delivery records. -/
def Event.outcome : Event → Option AckEngine.Outcome
  | .requeued m => some (.requeue m)
  | .deadLettered m => some (.deadLetter m)
  | _ => none

/-- The pass that the scanner still has to make, on top of what was pushed before. -/
def State.passFrom (cfg : Config) (now : TimePoint) (s : State) :
    AckEngine × List AckEngine.Outcome :=
  let (engine, outcomes) := s.engine.scan cfg.max_retries now
  (engine, s.trace.filterMap Event.outcome ++ outcomes)

/-- A failing delivery is the next push of the pass. -/
theorem Fails.outcome {key : DeliveryKey} {entry : InFlight} (h : Fails cfg s key t)
    (hentry : s.engine.in_flight.lookup key = some entry) :
    t.engine = { s.engine with in_flight := s.engine.in_flight.erase key } ∧
      t.trace.filterMap Event.outcome =
        s.trace.filterMap Event.outcome ++ [AckEngine.requeueOrDlq cfg.max_retries entry] := by
  cases h with
  | requeue entry' main_queue hentry' hretry hpush =>
    obtain rfl := Option.some.inj (hentry.symm.trans hentry')
    refine ⟨rfl, ?_⟩
    rw [List.filterMap_append, AckEngine.requeueOrDlq, if_neg (not_le.mpr hretry)]
    rfl
  | deadLetter entry' dlq hentry' hretry hpush =>
    obtain rfl := Option.some.inj (hentry.symm.trans hentry')
    refine ⟨rfl, ?_⟩
    rw [List.filterMap_append, AckEngine.requeueOrDlq, if_pos hretry]
    rfl

/-- While the scanner is in its loop, a step of whichever thread leaves the pass as it is, or is its
end. -/
theorem passFrom_step (hs : Owned s) (hpc : s.scanner = .scanning now)
    (h : s.step cfg a = some t) :
    t.scanner = .scanning now ∧ t.passFrom cfg now = s.passFrom cfg now ∨
      t.scanner = .sleeping ∧ (t.engine, t.trace.filterMap Event.outcome) = s.passFrom cfg now := by
  have hmu : s.mu = some .scanner := hs.scanner (by simp [hpc, ScannerPc.job])
  -- Nobody else has a job under way.
  have hjob : ∀ {n : ℕ} {c : Conn}, s.conns[n]? = some c → c.pc.job c.sock = none := by
    intro n c hn
    by_contra hc
    simp [hs.conns n c hn hc] at hmu
  -- What takes `mu_` cannot step, nor can a job that is under way: the scanner holds it.
  cases step_sound h with
  | ackEngine n c msg_id hn hpc' hfree => simp [hmu] at hfree
  | track now' m t todo hpc' hfree => simp [hmu] at hfree
  | nackPush n c msg_id u hn hpc' hfail =>
    have := hjob hn
    simp [hpc', ClientPc.job] at this
  | disconnectPush n c closing key t hn hpc' hkey hfail =>
    have := hjob hn
    simp [hpc', ClientPc.job] at this
  | wake now' hpc' => simp [hpc] at hpc'
  | scanLock now' hpc' => simp [hpc] at hpc'
  | scanDone now' hpc' hnone =>
    obtain rfl : now = now' := by simpa [hpc] using hpc'
    refine .inr ⟨rfl, ?_⟩
    simp only [State.passFrom, AckEngine.scan]
    cases hheap : s.engine.deadlines with
    | nil => simp [AckEngine.scanLoop, ← hheap]
    | cons d rest =>
      have hlater : now < d.1 := hnone d (by simp [hheap])
      obtain ⟨deadline, key⟩ := d
      have hlater : now < deadline := hlater
      simp [AckEngine.scanLoop, hlater, ← hheap]
  | scanSkip now' deadline key rest hpc' hhead hnow hentry =>
    obtain rfl : now = now' := by simpa [hpc] using hpc'
    refine .inl ⟨hpc, ?_⟩
    simp only [State.passFrom, AckEngine.scan, hhead, AckEngine.scanLoop, if_neg (not_lt.mpr hnow)]
    cases hk : s.engine.in_flight.lookup key with
    | none => rfl
    | some entry => simp [hentry entry hk]
  | scanPush now' deadline key rest entry t hpc' hhead hnow hentry hdue hfail =>
    obtain rfl : now = now' := by simpa [hpc] using hpc'
    obtain ⟨hengine, htrace⟩ := hfail.outcome hentry
    refine .inl ⟨hfail.threads_eq.2.2.1.trans hpc, ?_⟩
    simp only [State.passFrom, AckEngine.scan, hengine, htrace, hhead, AckEngine.scanLoop,
      if_neg (not_lt.mpr hnow), hentry, if_neg (not_lt.mpr hdue), List.append_assoc,
      List.singleton_append]
  | accept | ignore | subscribe | publish | ack | nack | heartbeat | errorResp | hangup
  | publishAppend | publishPush | ackWal | nackNone | nackLock | eraseClient | unsubscribe
  | disconnectLock | disconnectDone | pop | drop | route | sendWritten | sendGone | logPop
  | republish | audit | auditAppend | auditPush | flush | stopWal =>
    exact .inl ⟨hpc, by simp [State.passFrom, Event.outcome]⟩

/-- From the lock of the scanner to its unlock, whatever the other threads do meanwhile, the engine
goes through one pass, and the failed deliveries that are recorded are the pushes of the pass. -/
theorem scan_pass (hs : Owned s) (hpc : s.scanner = .scanning now)
    (hrun : Run (State.step cfg) (fun u _ => u.scanner = .scanning now) s as t)
    (hdone : t.scanner = .sleeping) :
    t.engine = (s.engine.scan cfg.max_retries now).1 ∧
      t.trace.filterMap Event.outcome =
        s.trace.filterMap Event.outcome ++ (s.engine.scan cfg.max_retries now).2 := by
  have hinv : Owned t ∧ (t.scanner = .scanning now ∧ t.passFrom cfg now = s.passFrom cfg now ∨
      t.scanner = .sleeping ∧
        (t.engine, t.trace.filterMap Event.outcome) = s.passFrom cfg now) := by
    -- The engine and the history are one step of the pass further, or at its end.
    refine hrun.invariant (I := fun u => Owned u ∧
      (u.scanner = .scanning now ∧ u.passFrom cfg now = s.passFrom cfg now ∨
        u.scanner = .sleeping ∧ (u.engine, u.trace.filterMap Event.outcome) = s.passFrom cfg now))
      (fun u a v hu hscanning h => ⟨hu.1.step h, ?_⟩) ⟨hs, .inl ⟨hpc, rfl⟩⟩
    rcases hu.2 with ⟨-, hpass⟩ | ⟨hsleeping, -⟩
    · rw [← hpass]
      exact passFrom_step hu.1 hscanning h
    · rw [hsleeping] at hscanning
      cases hscanning
  rcases hinv.2 with ⟨hscanning, -⟩ | ⟨-, hpass⟩
  · rw [hdone] at hscanning
    cases hscanning
  · exact Prod.mk.inj hpass

end EventQueue.Broker
