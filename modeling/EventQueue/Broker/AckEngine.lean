import EventQueue.Broker.Message
import EventQueue.Lib.AssocMap
import Mathlib.Data.List.Sort

/-!
# The acknowledgement engine

`AckEngine` of `broker/src/AckEngine.cpp`: the deliveries that wait for an acknowledgement, keyed by
message and client, and a heap of their deadlines. `ack`, `nack`, `client_disconnected`, and the
scanner touch only the map, and a delivery that is tracked again leaves its old deadline in the
heap; the scanner skips such entries. The pushes that `nack`, `client_disconnected`, and the
scanner make, and the mutex that they hold meanwhile, belong to the system in `Main.lean`.
-/

namespace EventQueue.Broker

/-- A reading of `steady_clock`. -/
abbrev TimePoint := ℤ

/-- The key of a delivery: the message's identifier and the client. -/
abbrev DeliveryKey := UInt64 × ClientId

/-- The order of the keys of `in_flight_`, a `std::map` on pairs. -/
def keyLe (a b : DeliveryKey) : Prop := a.1 < b.1 ∨ a.1 = b.1 ∧ a.2 ≤ b.2

instance : DecidableRel keyLe := fun _ _ => inferInstanceAs (Decidable (_ ∨ _ ∧ _))

/-- The least of a list of keys. -/
def leastKey : List DeliveryKey → Option DeliveryKey
  | [] => none
  | k :: ks =>
    match leastKey ks with
    | none => some k
    | some k' => if keyLe k k' then some k else some k'

/-- The least key is one of the keys. -/
theorem leastKey_mem {ks : List DeliveryKey} {k : DeliveryKey} (h : leastKey ks = some k) :
    k ∈ ks := by
  induction ks generalizing k with
  | nil => cases h
  | cons k₀ ks ih =>
    simp only [leastKey] at h
    cases hl : leastKey ks with
    | none => simp_all
    | some k' =>
      simp only [hl] at h
      split_ifs at h
      · simp_all
      · simp_all

/-- A delivery that waits for its acknowledgement. -/
structure InFlight where
  /-- The message as it was delivered. -/
  msg : Message
  /-- The client that it was delivered to. -/
  subscriber_id : ClientId
  /-- When the delivery times out. -/
  deadline : TimePoint
  /-- The number of failed deliveries before this one. -/
  retry_count : ℤ
deriving DecidableEq, Repr

/-- The `requeue_msg` of `requeue_or_dlq`: the message with one more failure. -/
def InFlight.requeueMsg (entry : InFlight) : Message :=
  { entry.msg with retry_count := entry.retry_count + 1 }

/-- The `dlq_msg` of `requeue_or_dlq`: the message under its dead-letter topic, without failures. -/
def InFlight.dlqMsg (entry : InFlight) : Message where
  msg_id := entry.msg.msg_id
  topic := dlqPrefix ++ entry.msg.topic
  body := entry.msg.body
  retry_count := 0
  origin := entry.msg.origin

/-- An entry of the heap of deadlines. -/
abbrev DeadlineEntry := TimePoint × DeliveryKey

/-- The order of the heap. -/
def deadlineLe (a b : DeadlineEntry) : Prop := a.1 < b.1 ∨ a.1 = b.1 ∧ keyLe a.2 b.2

instance : DecidableRel deadlineLe := fun _ _ => inferInstanceAs (Decidable (_ ∨ _ ∧ _))

/-- The state behind `AckEngine::mu_`. The heap is the list of its entries, earliest first. -/
structure AckEngine where
  /-- `in_flight_`. -/
  in_flight : AList fun _ : DeliveryKey => InFlight
  /-- `deadlines_`, so that `top` is the head. -/
  deadlines : List DeadlineEntry

namespace AckEngine

/-- The engine without deliveries. -/
def empty : AckEngine := ⟨∅, []⟩

/-- `track`: the entry of a delivery made at `now`, which replaces one with the same key. -/
def track (e : AckEngine) (msg : Message) (subscriber_id : ClientId) (now ack_timeout : TimePoint) :
    AckEngine where
  in_flight := e.in_flight.insert (msg.msg_id, subscriber_id)
    ⟨msg, subscriber_id, now + ack_timeout, msg.retry_count⟩
  deadlines := e.deadlines.orderedInsert deadlineLe
    (now + ack_timeout, (msg.msg_id, subscriber_id))

/-- `ack`: forget the delivery, if there is one. -/
def ack (e : AckEngine) (msg_id : UInt64) (id : ClientId) : AckEngine :=
  { e with in_flight := e.in_flight.erase (msg_id, id) }

/-- The entry that the loop of `client_disconnected` reaches next: the first of the client's in the
order of the map, since it erases every one that it has reached. -/
def nextOf (e : AckEngine) (id : ClientId) : Option DeliveryKey :=
  leastKey ((e.in_flight.entries.filter fun x => x.2.subscriber_id = id).map Sigma.fst)

/-- What `requeue_or_dlq` pushes, and on which queue. -/
inductive Outcome
  /-- Back on the main queue. -/
  | requeue (msg : Message)
  /-- On the dead-letter queue. -/
  | deadLetter (msg : Message)
deriving DecidableEq, Repr

/-- `requeue_or_dlq`. The count and the deadline that the source writes into the entry are not read
again: every caller erases the entry next. -/
def requeueOrDlq (max_retries : ℤ) (entry : InFlight) : Outcome :=
  if max_retries ≤ entry.retry_count then .deadLetter entry.dlqMsg else .requeue entry.requeueMsg

/-- The client's next entry is one of its entries. -/
theorem nextOf_mem {e : AckEngine} {id : ClientId} {k : DeliveryKey} (h : e.nextOf id = some k) :
    ∃ entry, e.in_flight.lookup k = some entry ∧ entry.subscriber_id = id := by
  obtain ⟨⟨k', entry⟩, hmem, rfl⟩ := List.mem_map.mp (leastKey_mem h)
  obtain ⟨hentry, hsub⟩ := List.mem_filter.mp hmem
  exact ⟨entry, AList.mem_entries_iff.mp hentry, by simpa using hsub⟩

end AckEngine

end EventQueue.Broker
