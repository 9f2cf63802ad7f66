import EventQueue.Broker.DeadlineScan
import EventQueue.Lib.Lifetime

/-!
# What becomes of a tracked delivery

Seen from outside, a history of calls on the engine is a history of deliveries. Each call of `track`
opens one, and the first later call that concerns it ends it: an `ack`, a `nack`, the client's
disconnection, a pass of the scanner at its deadline or later, or a `track` of the same delivery,
which takes its place. `deliveries_of_calls` says that the engine keeps to this, whatever the order
of the calls and the readings of the clock: `in_flight_` has the deliveries that nothing has ended,
and `requeue_or_dlq` was called once for each that a `nack`, a disconnection, or a pass has ended,
and for no other.

The heap is another matter. An `ack` leaves its deadline there, and so do a `nack`, a disconnection,
and a second `track`: `deadlines_` has every deadline that no later pass has passed, one for each
call of `track`. So an engine that is acknowledged at once still keeps a deadline for every message
of the last `ack_timeout`.
-/

namespace EventQueue.Broker

namespace AckEngine

open Lifetime

/-- A delivery: its key and its entry. -/
abbrev Delivery := Sigma fun _ : DeliveryKey => InFlight

variable {e : AckEngine} {max_retries ack_timeout : ℤ}

/-! ## The history of a delivery -/

/-- The delivery that a call opens. -/
def Call.opens (ack_timeout : ℤ) : Call → Option Delivery
  | .track msg subscriber_id now =>
    some ⟨(msg.msg_id, subscriber_id), ⟨msg, subscriber_id, now + ack_timeout, msg.retry_count⟩⟩
  | _ => none

/-- Whether a call ends a delivery. -/
def Call.ends (d : Delivery) : Call → Bool
  | .track msg subscriber_id _ => d.1 = (msg.msg_id, subscriber_id)
  | .ack msg_id id | .nack msg_id id => d.1 = (msg_id, id)
  | .clientDisconnected id => d.1.2 = id
  | .scan now => d.2.deadline ≤ now

/-- What is pushed for a delivery that a call has ended. -/
def due (max_retries : ℤ) : Delivery × Call → Option Outcome
  | (_, .track ..) | (_, .ack ..) => none
  | (d, .nack ..) | (d, .clientDisconnected _) | (d, .scan _) =>
    some (requeueOrDlq max_retries d.2)

/-- The deadline that a call puts on the heap. -/
def Call.deadline (ack_timeout : ℤ) : Call → Option DeadlineEntry
  | .track msg subscriber_id now => some (now + ack_timeout, (msg.msg_id, subscriber_id))
  | _ => none

/-- Whether a call is a pass that has passed a deadline. -/
def Call.passes (d : DeadlineEntry) : Call → Bool
  | .scan now => d.1 ≤ now
  | _ => false

/-- What the calls of a history have pushed. -/
def pushes (max_retries ack_timeout : ℤ) (calls : List Call) : List Outcome :=
  outputs (fun e x => (call max_retries ack_timeout e x).1)
    (fun e x => (call max_retries ack_timeout e x).2) empty calls

/-! ## One call -/

/-- The client of every entry is that of its key. -/
def Keyed (e : AckEngine) : Prop :=
  ∀ key entry, e.in_flight.lookup key = some entry → entry.subscriber_id = key.2

/-- Fewer entries are still keyed. -/
theorem Keyed.of_filter {e' : AckEngine} {p : Delivery → Bool} (h : e.Keyed)
    (hleft : ∀ key, e'.in_flight.lookup key =
      (e.in_flight.lookup key).filter fun entry => p ⟨key, entry⟩) : e'.Keyed := by
  intro key entry hk
  rw [hleft, Option.filter_eq_some_iff] at hk
  exact h key entry hk.1

/-- What a call leaves of the deliveries that were there, and what it pushes for the others. -/
structure Ends (max_retries : ℤ) (x : Call) (e : AckEngine) (result : AckEngine × List Outcome) :
    Prop where
  /-- What is left. -/
  left : ∀ key, result.1.in_flight.lookup key =
    (e.in_flight.lookup key).filter fun entry => !Call.ends ⟨key, entry⟩ x
  /-- What is pushed. -/
  pushed : result.2.Perm
    ((e.in_flight.entries.filter (Call.ends · x)).filterMap fun d => due max_retries (d, x))

/-- Erasing a key leaves the other ones. -/
theorem lookup_erase_eq_filter (in_flight : AList fun _ : DeliveryKey => InFlight)
    (key key' : DeliveryKey) :
    (in_flight.erase key).lookup key' =
      (in_flight.lookup key').filter fun _ => !decide (key' = key) := by
  by_cases h : key' = key
  · subst h
    cases in_flight.lookup key' <;> simp [Option.filter]
  · rw [AList.lookup_erase_ne h]
    cases in_flight.lookup key' <;> simp [Option.filter, h]

/-- The entry of one key, among the entries. -/
theorem filter_key_perm (in_flight : AList fun _ : DeliveryKey => InFlight) (key : DeliveryKey) :
    (in_flight.entries.filter fun d => decide (d.1 = key)).Perm
      ((in_flight.lookup key).toList.map fun entry => ⟨key, entry⟩) := by
  have hnodup : ((in_flight.lookup key).toList.map fun entry =>
      (⟨key, entry⟩ : Delivery)).Nodup := by
    cases in_flight.lookup key <;> simp
  refine (List.perm_ext_iff_of_nodup (in_flight.nodupKeys.nodup.filter _) hnodup).mpr ?_
  rintro ⟨key', entry⟩
  simp only [List.mem_filter, AList.mem_entries_iff, decide_eq_true_eq, List.mem_map,
    Option.mem_toList]
  constructor
  · rintro ⟨hentry, rfl⟩
    exact ⟨entry, hentry, rfl⟩
  · rintro ⟨entry', hentry, heq⟩
    obtain ⟨rfl, hvalue⟩ := Sigma.mk.inj_iff.mp heq
    obtain rfl := eq_of_heq hvalue
    exact ⟨hentry, rfl⟩

theorem ends_ack (e : AckEngine) (msg_id : UInt64) (id : ClientId) :
    Ends max_retries (.ack msg_id id) e (e.ack msg_id id, []) where
  left key := lookup_erase_eq_filter e.in_flight (msg_id, id) key
  pushed := by
    have hnone : (fun d : Delivery => due max_retries (d, .ack msg_id id)) = fun _ => none := rfl
    rw [hnone, List.filterMap_none]

theorem ends_nack (e : AckEngine) (msg_id : UInt64) (id : ClientId) :
    Ends max_retries (.nack msg_id id) e (nack max_retries e msg_id id) := by
  have hpush := (filter_key_perm e.in_flight (msg_id, id)).filterMap
    fun d => due max_retries (d, .nack msg_id id)
  unfold AckEngine.nack
  cases hentry : e.in_flight.lookup (msg_id, id) with
  | none =>
    refine ⟨fun key => ?_, ?_⟩
    · dsimp only
      rw [← AList.erase_of_lookup_eq_none hentry]
      exact (lookup_erase_eq_filter _ _ _).trans (by rw [AList.erase_of_lookup_eq_none hentry]; rfl)
    · rw [hentry] at hpush
      exact hpush.symm
  | some entry =>
    refine ⟨fun key => lookup_erase_eq_filter e.in_flight (msg_id, id) key, ?_⟩
    rw [hentry] at hpush
    exact hpush.symm

/-- A client without a next entry has no entries. -/
theorem subscriber_ne_of_nextOf {id : ClientId} (h : e.nextOf id = none) {d : Delivery}
    (hd : d ∈ e.in_flight.entries) : d.2.subscriber_id ≠ id := by
  intro hid
  have hmem : d.1 ∈ (e.in_flight.entries.filter fun x => x.2.subscriber_id = id).map Sigma.fst :=
    List.mem_map.mpr ⟨d, List.mem_filter.mpr ⟨hd, by simpa using hid⟩, rfl⟩
  unfold nextOf at h
  cases hkeys : (e.in_flight.entries.filter fun x => x.2.subscriber_id = id).map Sigma.fst with
  | nil =>
    rw [hkeys] at hmem
    exact List.not_mem_nil hmem
  | cons k ks =>
    rw [hkeys, leastKey] at h
    cases hleast : leastKey ks with
    | none => simp [hleast] at h
    | some k' =>
      rw [hleast] at h
      dsimp only at h
      split_ifs at h

/-- A call that ends no delivery changes nothing. -/
theorem ends_of_none {x : Call} (hkeep : ∀ d ∈ e.in_flight.entries, Call.ends d x = false) :
    Ends max_retries x e (e, []) where
  left key := by
    cases hk : e.in_flight.lookup key with
    | none => rfl
    | some entry => simp [Option.filter, hkeep ⟨key, entry⟩ (AList.mem_entries_iff.mpr hk)]
  pushed := by
    have hnone : e.in_flight.entries.filter (Call.ends · x) = [] :=
      List.filter_eq_nil_iff.mpr fun d hd => by simp [hkeep d hd]
    rw [hnone]
    exact List.Perm.refl _

/-- A call that ends one delivery, and then the others that it ends. -/
theorem Ends.cons {x : Call} {key : DeliveryKey} {entry : InFlight} {outcome : Outcome}
    {result : AckEngine × List Outcome} (hentry : e.in_flight.lookup key = some entry)
    (hends : Call.ends ⟨key, entry⟩ x = true) (hdue : due max_retries (⟨key, entry⟩, x) = outcome)
    (hrest : Ends max_retries x { e with in_flight := e.in_flight.erase key } result) :
    Ends max_retries x e (result.1, outcome :: result.2) where
  left k := by
    rw [hrest.left k]
    by_cases hk : k = key
    · subst hk
      rw [AList.lookup_erase, hentry]
      simp [Option.filter, hends]
    · rw [AList.lookup_erase_ne hk]
  pushed := by
    have hperm := ((AList.entries_perm_erase hentry).filter (Call.ends · x)).filterMap
      fun d => due max_retries (d, x)
    rw [List.filter_cons_of_pos (p := (Call.ends · x)) hends,
      List.filterMap_cons_some (f := fun d => due max_retries (d, x)) hdue] at hperm
    exact (hrest.pushed.cons _).trans hperm.symm

/-- The loop ends the deliveries to the client one by one. -/
theorem ends_disconnectLoop {id : ClientId} {fuel : ℕ} (he : e.Keyed)
    (hfuel : e.in_flight.entries.length ≤ fuel) :
    Ends max_retries (.clientDisconnected id) e (disconnectLoop max_retries id fuel e) := by
  induction fuel generalizing e with
  | zero =>
    have hnil : e.in_flight.entries = [] := List.length_eq_zero_iff.mp (by omega)
    exact ends_of_none fun d hd => by simp [hnil] at hd
  | succ fuel ih =>
    unfold disconnectLoop
    cases hkey : e.nextOf id with
    | none =>
      refine ends_of_none fun d hd => ?_
      have hclient := he d.1 d.2 (AList.mem_entries_iff.mp hd)
      simpa [Call.ends, ← hclient] using subscriber_ne_of_nextOf hkey hd
    | some key =>
      obtain ⟨entry, hentry, hid⟩ := nextOf_mem hkey
      have hclient : key.2 = id := (he key entry hentry).symm.trans hid
      have hnack : nack max_retries e key.1 key.2 =
          ({ e with in_flight := e.in_flight.erase key }, [requeueOrDlq max_retries entry]) := by
        simp [AckEngine.nack, hentry]
      have hlen := (AList.entries_perm_erase hentry).length_eq
      rw [List.length_cons] at hlen
      have hkeyed : Keyed { e with in_flight := e.in_flight.erase key } :=
        he.of_filter (p := fun d => !decide (d.1 = key)) (lookup_erase_eq_filter e.in_flight key)
      dsimp only
      rw [hnack]
      exact Ends.cons hentry (by simpa [Call.ends] using hclient) rfl
        (ih hkeyed (by dsimp only; omega))

/-- A pass ends what has timed out. -/
theorem ends_scan (he : Heaped e.deadlines e.in_flight) (now : ℤ) :
    Ends max_retries (.scan now) e (scan max_retries now e) := by
  have hscan := scanLoop_spec max_retries now he
  refine ⟨fun key => (hscan.left key).trans ?_, hscan.pushed.trans ?_⟩
  · refine congrArg (Option.filter · _) (funext fun entry => ?_)
    rw [Call.ends, ← decide_not]
    exact decide_eq_decide.mpr not_le.symm
  · have hdue : (fun d : Delivery => due max_retries (d, .scan now)) =
        some ∘ fun d => requeueOrDlq max_retries d.2 := rfl
    rw [hdue, List.filterMap_eq_map]
    exact List.Perm.refl _

/-! ## The kept deliveries and deadlines -/

/-- What every call keeps. -/
structure Tidy (e : AckEngine) : Prop where
  /-- The heap is in order, and no delivery is without its deadline. -/
  heaped : Heaped e.deadlines e.in_flight
  /-- The entries are keyed. -/
  keyed : e.Keyed

theorem tidy_empty : empty.Tidy where
  heaped := ⟨List.Pairwise.nil, fun key entry h => by simp [empty] at h⟩
  keyed := fun key entry h => by simp [empty] at h

/-- A call that is no `track` ends deliveries and opens none. -/
theorem ends_call (he : e.Tidy) {x : Call} (hx : x.opens ack_timeout = none) :
    Ends max_retries x e (call max_retries ack_timeout e x) := by
  cases x with
  | track => cases hx
  | ack msg_id id => exact ends_ack e msg_id id
  | nack msg_id id => exact ends_nack e msg_id id
  | clientDisconnected id => exact ends_disconnectLoop he.keyed le_rfl
  | scan now => exact ends_scan he.heaped now

/-- A `track` takes the place of what was there. -/
theorem lookup_track (msg : Message) (id : ClientId) (now : ℤ) (key : DeliveryKey) :
    (e.track msg id now ack_timeout).in_flight.lookup key =
      if key = (msg.msg_id, id) then some ⟨msg, id, now + ack_timeout, msg.retry_count⟩
      else e.in_flight.lookup key := by
  split_ifs with h
  · subst h
    simp [track]
  · rw [track, AList.lookup_insert_ne h]

theorem Tidy.call (he : e.Tidy) (x : Call) :
    (AckEngine.call max_retries ack_timeout e x).1.Tidy := by
  refine ⟨he.heaped.call max_retries ack_timeout x, ?_⟩
  cases hx : x.opens ack_timeout with
  | none => exact he.keyed.of_filter (p := fun d => !Call.ends d x) (ends_call he hx).left
  | some d =>
    cases x with
    | track msg id now =>
      intro key entry hk
      rw [AckEngine.call, lookup_track] at hk
      split_ifs at hk with hkey
      · obtain rfl := Option.some.inj hk
        rw [hkey]
      · exact he.keyed key entry hk
    | _ => cases hx

/-- The deliveries after a call. -/
theorem entries_call (he : e.Tidy) (x : Call) :
    (call max_retries ack_timeout e x).1.in_flight.entries.Perm
      (e.in_flight.entries.filter (fun d => !Call.ends d x) ++
        (x.opens ack_timeout).toList) := by
  cases hx : x.opens ack_timeout with
  | none =>
    rw [Option.toList_none, List.append_nil]
    exact AList.entries_perm_filter (ends_call he hx).left
  | some d =>
    cases x with
    | track msg id now =>
      obtain rfl := Option.some.inj hx
      -- The new entry is in front, and those of the other keys come after it.
      have hothers : (e.in_flight.erase (msg.msg_id, id)).entries.Perm
          (e.in_flight.entries.filter fun d => !Call.ends d (.track msg id now)) :=
        AList.entries_perm_filter fun key =>
          lookup_erase_eq_filter e.in_flight (msg.msg_id, id) key
      exact (hothers.cons _).trans (List.perm_append_singleton _ _).symm
    | _ => cases hx

/-- What a call pushes. -/
theorem pushed_call (he : e.Tidy) (x : Call) :
    (call max_retries ack_timeout e x).2.Perm
      ((e.in_flight.entries.filter (Call.ends · x)).filterMap fun d => due max_retries (d, x)) := by
  cases hx : x.opens ack_timeout with
  | none => exact (ends_call he hx).pushed
  | some d =>
    cases x with
    | track msg id now =>
      have hnone : (fun d : Delivery => due max_retries (d, .track msg id now)) =
          fun _ => none := rfl
      rw [hnone, List.filterMap_none]
      exact List.Perm.refl _
    | _ => cases hx

/-- A pass takes from the heap what it has passed. -/
theorem deadlines_scanLoop {deadlines : List DeadlineEntry}
    (hsorted : deadlines.Pairwise fun a b => a.1 ≤ b.1) (now : ℤ)
    (in_flight : AList fun _ : DeliveryKey => InFlight) :
    (scanLoop max_retries now deadlines in_flight).1.deadlines =
      deadlines.filter fun d => now < d.1 := by
  induction deadlines generalizing in_flight with
  | nil => rfl
  | cons d rest ih =>
    obtain ⟨hfirst, hrest⟩ := List.pairwise_cons.mp hsorted
    obtain ⟨deadline, key⟩ := d
    unfold scanLoop
    split_ifs with hnow
    · -- Everything behind the top of the heap lies after `now` as well.
      refine (List.filter_eq_self.mpr fun d hd => ?_).symm
      rcases List.mem_cons.mp hd with rfl | hd
      · simpa using hnow
      · simpa using hnow.trans_le (hfirst d hd)
    · rw [List.filter_cons_of_neg (by simpa using hnow)]
      cases in_flight.lookup key with
      | none => exact ih hrest in_flight
      | some entry =>
        dsimp only
        split_ifs
        · exact ih hrest in_flight
        · exact ih hrest (in_flight.erase key)

theorem deadlines_disconnectLoop (id : ClientId) (fuel : ℕ) :
    (disconnectLoop max_retries id fuel e).1.deadlines = e.deadlines := by
  have hnack : ∀ (e : AckEngine) (msg_id : UInt64) (id : ClientId),
      (nack max_retries e msg_id id).1.deadlines = e.deadlines := by
    intro e msg_id id
    unfold nack
    split <;> rfl
  induction fuel generalizing e with
  | zero => rfl
  | succ fuel ih =>
    unfold disconnectLoop
    split
    · rfl
    · exact ih.trans (hnack e _ _)

/-- The heap after a call. -/
theorem deadlines_call (he : e.Tidy) (x : Call) :
    (call max_retries ack_timeout e x).1.deadlines.Perm
      (e.deadlines.filter (fun d => !Call.passes d x) ++ (x.deadline ack_timeout).toList) := by
  have hall : ∀ x : Call, (∀ d, x.passes d = false) →
      e.deadlines.filter (fun d => !Call.passes d x) = e.deadlines := by
    intro x hx
    exact List.filter_eq_self.mpr fun d _ => by simp [hx d]
  cases x with
  | track msg id now =>
    rw [hall _ fun d => rfl]
    exact (List.perm_orderedInsert deadlineLe _ _).trans (List.perm_append_singleton _ _).symm
  | ack msg_id id =>
    rw [hall _ fun d => rfl]
    exact List.Perm.of_eq (List.append_nil _).symm
  | nack msg_id id =>
    rw [hall _ fun d => rfl]
    show List.Perm _ (e.deadlines ++ [])
    rw [List.append_nil]
    unfold AckEngine.call nack
    dsimp only
    split <;> exact List.Perm.refl _
  | clientDisconnected id =>
    rw [hall _ fun d => rfl]
    show List.Perm _ (e.deadlines ++ [])
    rw [List.append_nil]
    exact List.Perm.of_eq (deadlines_disconnectLoop id _)
  | scan now =>
    show List.Perm _ (_ ++ [])
    rw [List.append_nil]
    refine List.Perm.of_eq ((deadlines_scanLoop he.heaped.sorted now _).trans ?_)
    refine congrArg (List.filter · _) (funext fun d => ?_)
    rw [Call.passes, ← decide_not]
    exact decide_eq_decide.mpr not_le.symm

/-- Every delivery has a deadline of its own on the heap. -/
theorem Heaped.length_le {deadlines : List DeadlineEntry}
    {in_flight : AList fun _ : DeliveryKey => InFlight} (h : Heaped deadlines in_flight) :
    in_flight.entries.length ≤ deadlines.length := by
  have hnodup : (in_flight.entries.map fun d => (d.2.deadline, d.1)).Nodup := by
    refine List.Nodup.of_map Prod.snd ?_
    rw [List.map_map]
    exact in_flight.nodupKeys
  have hsub : (in_flight.entries.map fun d => (d.2.deadline, d.1)) ⊆ deadlines := by
    intro x hx
    obtain ⟨d, hd, rfl⟩ := List.mem_map.mp hx
    exact h.own d.1 d.2 (AList.mem_entries_iff.mp hd)
  have hlen := (hnodup.subperm hsub).length_le
  rwa [List.length_map] at hlen

/-! ## A history -/

/-- After every history of calls, in any order and with any readings of the clock, the deliveries in
flight are those that no later call has ended; what was pushed is one message, as `requeue_or_dlq`
decides, for each delivery whose first end was a `nack`, a disconnection, or a pass of the scanner,
and nothing for one that was acknowledged or tracked again before; the heap has the deadline of
every `track` that no later pass has passed, acknowledged or not; and there are no more deliveries
than deadlines. -/
theorem deliveries_of_calls (max_retries ack_timeout : ℤ) (calls : List Call) :
    (afterCalls max_retries ack_timeout calls).in_flight.entries.Perm
      (alive (Call.opens ack_timeout) Call.ends calls) ∧
    (pushes max_retries ack_timeout calls).Perm
      ((ended (Call.opens ack_timeout) Call.ends calls).filterMap (due max_retries)) ∧
    (afterCalls max_retries ack_timeout calls).deadlines.Perm
      (alive (Call.deadline ack_timeout) Call.passes calls) ∧
    (afterCalls max_retries ack_timeout calls).in_flight.entries.length ≤
      (afterCalls max_retries ack_timeout calls).deadlines.length := by
  have hstep : ∀ (e : AckEngine) (x : Call), e.Tidy →
      (call max_retries ack_timeout e x).1.Tidy := fun e x he => he.call x
  refine ⟨?_, ?_, ?_, (heaped_afterCalls max_retries ack_timeout calls).length_le⟩
  · exact alive_of_steps (fun e => e.in_flight.entries) tidy_empty hstep rfl
      (fun e x he => entries_call he x) calls
  · exact outputs_of_steps (fun e => e.in_flight.entries) tidy_empty hstep rfl
      (fun e x he => entries_call he x) (fun e x he => pushed_call he x) calls
  · exact alive_of_steps deadlines tidy_empty hstep rfl
      (fun e x he => deadlines_call he x) calls

/-- What was acknowledged at once keeps its deadline. -/
example : (afterCalls 3 100 [.track ⟨1, [0x74], [], 0, 0⟩ 5 0, .ack 1 5]).in_flight.entries = [] ∧
    (afterCalls 3 100 [.track ⟨1, [0x74], [], 0, 0⟩ 5 0, .ack 1 5]).deadlines = [(100, 1, 5)] := by
  decide

end AckEngine

end EventQueue.Broker
