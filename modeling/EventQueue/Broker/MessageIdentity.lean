import EventQueue.Broker.Flow
import EventQueue.Broker.Replay

/-!
# Message identity

An identifier stands for one message: two copies that the broker holds under one `msg_id` descend
from the same PUBLISH frame, replayed record, or audit event. `in_flight_` relies on it, since its
key is the identifier and the client.

Identifiers come from clients, from the counter, and from the log, and nothing keeps these apart:
the counter starts at one in every session, whatever the log holds (`replayed_id_reused`). They are
kept apart in every run in which a message enters `main_queue` under an identifier that no message
in the broker has (`entersUnheld`). The replay itself needs no such condition, since it collects the
records in a map.
-/

namespace EventQueue.Broker

open TopicRouter (Target)
open Transition (Run exec execChecked run_of_execChecked)

namespace State

/-- The messages that are pending: in `main_queue`, in the dispatcher's hand, or in `in_flight_`. -/
def unsettled (s : State) : List Message :=
  s.main_queue.queue ++ s.dispatcher.message.toList ++
    s.engine.in_flight.entries.map fun e => e.2.msg

/-- The messages that the broker holds: the pending ones, and the dead letters on their way back to
`main_queue`. -/
def held (s : State) : List Message :=
  s.unsettled ++ s.dlq.queue ++ (deadLetterInHand s.logger).toList

end State

/-- A message enters `main_queue` for the first time under an identifier that no message in the
broker has. -/
def entersUnheld (s : State) (a : Action) : Bool :=
  match s.offered a with
  | none => true
  | some m => s.held.all fun m' => m'.msg_id ≠ m.msg_id

variable {cfg : Config} {s t : State} {a : Action} {as : List Action} {file : Bytes}
  {order : List Message} {P : Message → Prop}

/-- A property of every copy is one of the messages that the broker holds. -/
theorem forall_flow_iff : s.flow.Forall P ↔ ∀ m ∈ s.held, P m := by
  have hentries : (∀ key entry, s.engine.in_flight.lookup key = some entry → P entry.msg) ↔
      ∀ e ∈ s.engine.in_flight.entries, P e.2.msg := by
    constructor
    · exact fun h e he => h e.1 e.2 (AList.mem_entries_iff.mp he)
    · exact fun h key entry hentry => h ⟨key, entry⟩ (AList.mem_entries_iff.mpr hentry)
  constructor
  · rintro ⟨hqueue, hhand, hflight, hdlq, hlogger⟩ m hm
    have hflight := hentries.mp hflight
    simp only [State.held, State.unsettled, List.mem_append, List.mem_map, Option.mem_toList] at hm
    rcases hm with (((hm | hm) | ⟨e, he, rfl⟩) | hm) | hm
    · exact hqueue m hm
    · exact hhand m hm
    · exact hflight e he
    · exact hdlq m hm
    · exact hlogger m hm
  · intro h
    refine ⟨fun m hm => ?_, fun m hm => ?_, hentries.mpr fun e he => ?_, fun m hm => ?_,
      fun m hm => ?_⟩
    all_goals
      refine h _ ?_
      simp only [State.held, State.unsettled, List.mem_append, List.mem_map, Option.mem_toList]
    · exact .inl (.inl (.inl (.inl hm)))
    · exact .inl (.inl (.inl (.inr hm)))
    · exact .inl (.inl (.inr ⟨e, he, rfl⟩))
    · exact .inl (.inr hm)
    · exact .inr hm

/-- Every copy that the broker holds has the origin that its identifier stands for. -/
def Identified (s : State) : Prop := ∃ ρ : UInt64 → ℕ, ∀ m ∈ s.held, m.origin = ρ m.msg_id

/-- After a start an identifier stands for the place in the replay at which it was pushed. -/
theorem identified_of_start (h : State.start cfg file order = some s) : Identified s := by
  have hnodup : (order.map Message.msg_id).Nodup :=
    ((perm_of_start h).map _).nodup_iff.mpr (nodup_replayMessages file)
  refine ⟨(order.map Message.msg_id).idxOf, forall_flow_iff.mp ?_⟩
  rw [flow_of_start h]
  refine ⟨fun m hm => ?_, by simp, by simp, by simp, by simp⟩
  obtain ⟨⟨m', i⟩, hmem, rfl⟩ := List.mem_map.mp hm
  have hi : (order.map Message.msg_id)[i]? = some m'.msg_id := by
    rw [List.getElem?_map, List.mk_mem_zipIdx_iff_getElem?.mp hmem]
    rfl
  obtain ⟨hlt, hi⟩ := List.getElem?_eq_some_iff.mp hi
  rw [← hi]
  exact (hnodup.idxOf_getElem i hlt).symm

/-- A step keeps identifiers apart, when a new message enters under one that no message has. -/
theorem Identified.step (hs : Identified s) (hfiled : s.flow.Filed)
    (hok : entersUnheld s a = true) (h : s.step cfg a = some t) : Identified t := by
  obtain ⟨ρ, hρ⟩ := hs
  cases hoffered : s.offered a with
  | none =>
    refine ⟨ρ, forall_flow_iff.mp ((forall_flow_iff.mpr hρ).move hfiled (step_move h)
      (fun m hm _ => ?_) (fun m hm _ => hm) fun m hm _ => hm)⟩
    have hm : s.offered a = some m := hm
    simp [hoffered] at hm
  | some m₀ =>
    -- The identifier that was free now stands for the new message.
    have hfree : ∀ m ∈ s.held, m.msg_id ≠ m₀.msg_id := by
      simpa [entersUnheld, hoffered] using hok
    refine ⟨Function.update ρ m₀.msg_id m₀.origin, forall_flow_iff.mp
      (Flow.Forall.move (forall_flow_iff.mpr fun m hm => ?_) hfiled (step_move h)
        (fun m hm _ => ?_) (fun m hm _ => hm) fun m hm _ => hm)⟩
    · rw [Function.update_of_ne (hfree m hm)]
      exact hρ m hm
    · obtain rfl : m₀ = m := Option.some.inj (hoffered.symm.trans hm)
      simp

/-- Two copies that the broker holds under one identifier have the same origin. -/
theorem Identified.origin_eq (hs : Identified s) {m m' : Message} (hm : m ∈ s.held)
    (hm' : m' ∈ s.held) (hid : m.msg_id = m'.msg_id) : m.origin = m'.origin := by
  obtain ⟨ρ, hρ⟩ := hs
  rw [hρ m hm, hρ m' hm', hid]

/-- A delivery in flight is a pending copy. -/
theorem mem_unsettled_of_lookup {key : DeliveryKey} {entry : InFlight}
    (h : s.engine.in_flight.lookup key = some entry) : entry.msg ∈ s.unsettled :=
  List.mem_append_right _ (List.mem_map.mpr ⟨⟨key, entry⟩, AList.mem_entries_iff.mpr h, rfl⟩)

/-- What is pending is held. -/
theorem mem_held_of_mem_unsettled {m : Message} (h : m ∈ s.unsettled) : m ∈ s.held := by
  simp [State.held, h]

/-- Pending messages that come from different PUBLISH frames, replayed records, or audit events have
different identifiers, `track` replaces entries of the same message only, and what `ack` removes
belongs to the only message that is pending under the identifier: in every run, on any log and with
any identifiers, in which a message enters `main_queue` under an identifier that no message in the
broker has. -/
theorem message_identity (hstart : State.start cfg file order = some s)
    (hrun : Run (State.step cfg) (entersUnheld · ·) s as t) :
    (∀ m ∈ t.unsettled, ∀ m' ∈ t.unsettled, m.origin ≠ m'.origin → m.msg_id ≠ m'.msg_id) ∧
      (∀ m tgt todo entry, t.dispatcher = .tracking m tgt todo →
        t.engine.in_flight.lookup (m.msg_id, tgt.client_id) = some entry →
        entry.msg.origin = m.origin) ∧
      ∀ a key entry, t.acking a = some key → t.engine.in_flight.lookup key = some entry →
        ∀ m ∈ t.unsettled, m.msg_id = key.1 → m.origin = entry.msg.origin := by
  have hinv : Identified t ∧ t.flow.Filed := by
    refine hrun.invariant (I := fun s => Identified s ∧ s.flow.Filed)
      (fun s a t hs hok h => ⟨hs.1.step hs.2 hok h, hs.2.move (step_move h)⟩)
      ⟨identified_of_start hstart, ?_⟩
    rw [flow_of_start hstart]
    simp [Flow.Filed]
  obtain ⟨hid, hfiled⟩ := hinv
  have hentry : ∀ {key entry}, t.engine.in_flight.lookup key = some entry →
      entry.msg ∈ t.held ∧ entry.msg.msg_id = key.1 := fun {key entry} h =>
    ⟨mem_held_of_mem_unsettled (mem_unsettled_of_lookup h), by rw [(hfiled key entry h).1]⟩
  refine ⟨fun m hm m' hm' hne heq => ?_, fun m tgt todo entry hpc h => ?_,
    fun a key entry hkey h m hm heq => ?_⟩
  · exact hne (hid.origin_eq (mem_held_of_mem_unsettled hm) (mem_held_of_mem_unsettled hm') heq)
  · have hm : m ∈ t.unsettled := by simp [State.unsettled, hpc]
    exact hid.origin_eq (hentry h).1 (mem_held_of_mem_unsettled hm) (hentry h).2
  · exact hid.origin_eq (mem_held_of_mem_unsettled hm) (hentry h).1 (heq.trans (hentry h).2.symm)

/-- One message is delivered and acknowledged, and a second is published with the identifier of the
first. -/
def idReusedAfterAck : List Action :=
  [.accept 5, .accept 6, .frame 0 0x02 0 [0, 1, 0x74, 0, 0], .frame 1 0x01 7 [0, 1, 0x74],
    .client 1, .client 1, .pop, .route [⟨[0x74], ascii "__unique_5", 5⟩], .track 0, .send,
    .frame 0 0x03 7 [], .client 0, .client 0, .frame 1 0x01 7 [0, 1, 0x74], .client 1, .client 1,
    .frame 1 0x01 0 [0, 1, 0x74], .client 1, .client 1]

/-- An identifier that a client uses again is free by then, and the two messages that are pending
are told apart. -/
theorem message_identity_reused_after_ack :
    ∃ t, Run (State.step ⟨4, 3, 5000⟩) (entersUnheld · ·) (State.init ⟨4, 3, 5000⟩)
        idReusedAfterAck t ∧
      t.unsettled = [⟨7, [0x74], [], 0, 1⟩, ⟨1, [0x74], [], 0, 2⟩] ∧
      ∀ m ∈ t.unsettled, ∀ m' ∈ t.unsettled, m.origin ≠ m'.origin → m.msg_id ≠ m'.msg_id := by
  obtain ⟨t, ht, hend⟩ := (Option.any_eq_true _ _).mp
    (show (execChecked (State.step ⟨4, 3, 5000⟩) (entersUnheld · ·) (State.init ⟨4, 3, 5000⟩)
      idReusedAfterAck).any (fun t =>
        t.unsettled = [⟨7, [0x74], [], 0, 1⟩, ⟨1, [0x74], [], 0, 2⟩]) = true by decide)
  have hrun := run_of_execChecked ht
  exact ⟨t, hrun, of_decide_eq_true hend, (message_identity (State.start_nil _) hrun).1⟩

/-- A session on a log with one pending message: it is delivered, another one is published, and the
dispatcher is about to track it for the same client. -/
def publishedAfterReplay : List Action :=
  [.accept 5, .accept 6, .frame 0 0x02 0 [0, 1, 0x74, 0, 0], .pop,
    .route [⟨[0x74], ascii "__unique_5", 5⟩], .track 0, .send, .frame 1 0x01 0 [0, 1, 0x74],
    .client 1, .client 1, .pop, .route [⟨[0x74], ascii "__unique_5", 5⟩]]

/-- The counter gives the published message the identifier of the replayed one, while that one is in
flight, and `track` is about to replace its entry. -/
theorem replayed_id_reused :
    ∃ s t, State.start ⟨4, 3, 5000⟩ (walCodec.encodeAll [.publish 1 [0x74] []])
        [⟨1, [0x74], [], 0, 0⟩] = some s ∧
      exec (State.step ⟨4, 3, 5000⟩) s publishedAfterReplay = some t ∧
      t.unsettled = [⟨1, [0x74], [], 0, 1⟩, ⟨1, [0x74], [], 0, 0⟩] ∧
      ¬∀ m tgt todo entry, t.dispatcher = .tracking m tgt todo →
        t.engine.in_flight.lookup (m.msg_id, tgt.client_id) = some entry →
        entry.msg.origin = m.origin := by
  obtain ⟨t, ht, hend⟩ := (Option.any_eq_true _ _).mp
    (show ((State.start ⟨4, 3, 5000⟩ (walCodec.encodeAll [.publish 1 [0x74] []])
      [⟨1, [0x74], [], 0, 0⟩]).bind fun s =>
      exec (State.step ⟨4, 3, 5000⟩) s publishedAfterReplay).any (fun t =>
        t.unsettled = [⟨1, [0x74], [], 0, 1⟩, ⟨1, [0x74], [], 0, 0⟩] ∧
        t.dispatcher = .tracking ⟨1, [0x74], [], 0, 1⟩ ⟨[0x74], ascii "__unique_5", 5⟩ [] ∧
        t.engine.in_flight.lookup (1, 5) = some ⟨⟨1, [0x74], [], 0, 0⟩, 5, 5000, 0⟩) = true
      by decide)
  obtain ⟨hpending, hpc, hentry⟩ := of_decide_eq_true hend
  obtain ⟨s, hs, ht⟩ := Option.bind_eq_some_iff.mp ht
  refine ⟨s, t, hs, ht, hpending, fun h => ?_⟩
  exact absurd (h _ _ _ _ hpc hentry) (by decide)

end EventQueue.Broker
