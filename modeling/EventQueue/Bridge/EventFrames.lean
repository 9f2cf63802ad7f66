import EventQueue.Bridge.Wire
import EventQueue.Broker.Flow

/-!
# The frames of the dispatcher

`encode_frame` narrows a topic's length to 16 bits and a payload's to 32 and writes all the bytes,
so the frame of a message is what its header says exactly when both lengths fit (`wellFormed_iff`).
What a PUBLISH frame carries fits, since it arrived in such a frame. But a dead letter's topic is
five bytes longer than the topic that it comes from, and an audit event's body contains the dead
letter; nothing checks that they still fit.
-/

namespace EventQueue.Bridge

open BigEndian (be length_be ofBe_be)
open Broker (Message dlqPrefix)
open Gateway (Frame MsgType HEADER_SIZE frameCodec)
open Transition (Run exec execChecked run_of_exec run_of_execChecked)

/-! ## One message -/

/-- The frame that the dispatcher hands to `send_to` for a message. -/
def eventFrame (m : Message) : Bytes := Broker.encodeFrame .eventData m.msg_id m.topic m.body

/-- The lengths of a message fit the fields of its frame. -/
def FitsFrame (m : Message) : Prop :=
  m.topic.length < 2 ^ 16 ∧ 2 + m.topic.length + m.body.length < 2 ^ 32

instance : DecidablePred FitsFrame := fun m =>
  inferInstanceAs (Decidable (m.topic.length < 2 ^ 16 ∧ _ < 2 ^ 32))

/-- The frame of a message is what the gateway takes it for. -/
structure WellFormed (m : Message) : Prop where
  /-- It is as long as its header says. -/
  length : (eventFrame m).length = HEADER_SIZE + (Gateway.decodeHeader (eventFrame m)).payloadLen
  /-- Its header is valid, and has the type of an event and the message's identifier. -/
  header : (Gateway.decodeHeader (eventFrame m)).valid = true ∧
    (Gateway.decodeHeader (eventFrame m)).type = MsgType.eventData.toByte ∧
    (Gateway.decodeHeader (eventFrame m)).msgId = m.msg_id
  /-- Its payload has the message's topic, as a string, and its body. -/
  payload : Gateway.decodeEventPayload ((eventFrame m).drop HEADER_SIZE) =
    (JsString.ofUtf8 m.topic, m.body)
  /-- A framer takes it off the stream, no more and no less. -/
  framed : ∀ rest, Frame.decode (eventFrame m ++ rest) =
    some (⟨MsgType.eventData.toByte, m.msg_id, (eventFrame m).drop HEADER_SIZE⟩, rest)

/-- The frame has all the bytes of the topic and the body. -/
theorem length_eventFrame (m : Message) :
    (eventFrame m).length = HEADER_SIZE + (2 + m.topic.length + m.body.length) := by
  simp only [eventFrame, Broker.encodeFrame, encodeHeader_eq, lengthPrefix_eq, List.length_append,
    length_be, List.length_singleton, HEADER_SIZE]
  omega

/-- The header of the frame has the payload's length with the topic's narrowed to 16 bits and the
sum to 32. -/
theorem payloadLen_eventFrame (m : Message) :
    (Gateway.decodeHeader (eventFrame m)).payloadLen =
      (2 + m.topic.length % 2 ^ 16 + m.body.length) % 2 ^ 32 := by
  -- The sum of the fields, in the arithmetic of 32 bits.
  have hlen : (2 + (UInt16.ofNat m.topic.length).toUInt32 + UInt32.ofNat m.body.length).toNat =
      (2 + m.topic.length % 2 ^ 16 + m.body.length) % 2 ^ 32 := by
    simp only [UInt32.toNat_add, UInt16.toNat_toUInt32, UInt16.toNat_ofNat', UInt32.toNat_ofNat']
    rw [show UInt32.toNat 2 = 2 from rfl]
    omega
  -- The bytes before the length field, and those from it on.
  have hsplit : eventFrame m = (be 4 Gateway.MAGIC ++ [Broker.MessageType.eventData.toByte]) ++
      (be 4 ((2 + m.topic.length % 2 ^ 16 + m.body.length) % 2 ^ 32) ++
        (be 8 m.msg_id.toNat ++ Broker.lengthPrefix (UInt16.ofNat m.topic.length) ++ m.topic ++
          m.body)) := by
    simp [eventFrame, Broker.encodeFrame, encodeHeader_eq, hlen]
  rw [Gateway.decodeHeader, hsplit]
  dsimp only
  rw [List.drop_left' (by simp), List.take_left' (length_be _ _), ofBe_be]
  exact Nat.mod_lt _ (by norm_num)

/-- A message whose lengths fit has the frame of the wire format. -/
theorem eventFrame_eq {m : Message} (h : FitsFrame m) :
    eventFrame m = (dataFrame .eventData m.msg_id m.topic m.body).encode :=
  encodeFrame_eq .eventData .eventData rfl h.1 h.2

/-- The frame of a message is well formed exactly when its lengths fit. -/
theorem wellFormed_iff (m : Message) : WellFormed m ↔ FitsFrame m := by
  constructor
  · intro h
    -- The length alone decides.
    have hlen := h.length
    rw [length_eventFrame, payloadLen_eventFrame] at hlen
    have hlt : (2 + m.topic.length % 2 ^ 16 + m.body.length) % 2 ^ 32 < 2 ^ 32 :=
      Nat.mod_lt _ (by norm_num)
    have hle : (2 + m.topic.length % 2 ^ 16 + m.body.length) % 2 ^ 32 ≤
        2 + m.topic.length % 2 ^ 16 + m.body.length := Nat.mod_le _ _
    unfold FitsFrame
    omega
  · intro h
    -- The lengths fit, so the frame is the one of the wire format.
    have hpayload : (dataFrame .eventData m.msg_id m.topic m.body).payload.length < 2 ^ 32 := by
      have := h.2
      simp only [dataFrame, List.length_append, length_be]
      omega
    have hheader := Gateway.decodeHeader_encode hpayload []
    rw [List.append_nil, ← eventFrame_eq h] at hheader
    have hdrop : (eventFrame m).drop HEADER_SIZE =
        (dataFrame .eventData m.msg_id m.topic m.body).payload := by
      rw [eventFrame_eq h, drop_encode]
    refine ⟨?_, ?_, ?_, fun rest => ?_⟩
    · rw [hheader, eventFrame_eq h, Frame.length_encode]
    · rw [hheader]
      exact ⟨rfl, rfl, rfl⟩
    · rw [hdrop, decodeEventPayload_dataFrame h.1]
    · have hdec := frameCodec.dec_enc rest hpayload
      dsimp only [frameCodec] at hdec
      rw [hdrop, eventFrame_eq h, hdec]
      rfl

/-! ## Every message that is dispatched -/

variable {cfg : Broker.Config} {s t : Broker.State} {a : Broker.Action} {as : List Broker.Action}
  {file : Bytes} {order : List Message} {m : Message}

/-- What a PUBLISH frame carries fits another frame. -/
theorem fitsFrame_decodePublish {payload : Bytes} (h : payload.length < 2 ^ 32)
    (htopic : m.topic = (Broker.decodePublish payload).topic)
    (hbody : m.body = (Broker.decodePublish payload).body) : FitsFrame m := by
  have hlt := Broker.length_decodePublish_topic_lt payload
  rw [← htopic] at hlt
  refine ⟨hlt, ?_⟩
  rw [htopic, hbody]
  unfold Broker.decodePublish
  dsimp only
  split_ifs
  · simp
  · simp
  · simp only [List.length_take, List.length_drop]
    omega

/-- A message that a step records as published came in a PUBLISH frame. -/
theorem fitsFrame_of_published (h : s.step cfg a = some t) {n : ℕ}
    (htrace : t.trace = s.trace ++ [.published n m]) : FitsFrame m := by
  cases Broker.step_sound h with
  | publish n' c type msg_id payload m' hn hpc hlen htype hm' =>
    obtain ⟨-, rfl⟩ : n' = n ∧ m' = m := by simpa using htrace
    exact fitsFrame_decodePublish hlen (by rw [hm']) (by rw [hm'])
  | nackPush n' c msg_id u hn hpc hfail => cases hfail <;> simp at htrace
  | disconnectPush n' c closing key t hn hpc hkey hfail => cases hfail <;> simp at htrace
  | scanPush now deadline key rest entry t hpc hhead hnow hentry hdue hfail =>
    cases hfail <;> simp at htrace
  | _ => simp at htrace

/-- A message that a step records as an audit event has the body of the dead letter's. -/
theorem audit_of_audited (h : s.step cfg a = some t) (htrace : t.trace = s.trace ++ [.audited m]) :
    ∃ letter, a = .log ∧ s.logger = .audit letter ∧ m.topic = Broker.sysDlqTopic ∧
      m.body = Broker.State.auditBody letter := by
  cases Broker.step_sound h with
  | audit letter sys hpc hsys =>
    obtain rfl : sys = m := by simpa using htrace
    exact ⟨letter, rfl, hpc, by rw [hsys], by rw [hsys]⟩
  | nackPush n' c msg_id u hn hpc hfail => cases hfail <;> simp at htrace
  | disconnectPush n' c closing key t hn hpc hkey hfail => cases hfail <;> simp at htrace
  | scanPush now deadline key rest entry t hpc hhead hnow hentry hdue hfail =>
    cases hfail <;> simp at htrace
  | _ => simp at htrace

/-- Nothing that a step makes is too long for a frame: a delivery that is dead-lettered leaves room
for the prefix of its topic, and an audit event for what it says of its dead letter. -/
def leavesRoom (cfg : Broker.Config) (s : Broker.State) (a : Broker.Action) : Bool :=
  (((s.failing a).bind fun key => s.engine.in_flight.lookup key).all fun entry =>
    entry.retry_count < cfg.max_retries ∨
      entry.msg.topic.length + 5 < 2 ^ 16 ∧
        2 + (entry.msg.topic.length + 5) + entry.msg.body.length < 2 ^ 32) &&
  match a, s.logger with
  | .log, .audit letter => 2 + 8 + (Broker.State.auditBody letter).length < 2 ^ 32
  | _, _ => true

/-- Every copy, and every message that is not queued yet, fits a frame. -/
structure Fitting (s : Broker.State) : Prop where
  /-- The copies. -/
  copies : s.flow.Forall FitsFrame
  /-- The messages that a thread is about to queue. -/
  staged : ∀ m, s.Staged m → FitsFrame m

/-- A step that leaves room keeps every message fitting. -/
theorem Fitting.step (hs : Fitting s) (hok : leavesRoom cfg s a = true)
    (h : s.step cfg a = some t) : Fitting t := by
  obtain ⟨hfail, haudit⟩ := Bool.and_eq_true_iff.mp hok
  constructor
  · refine hs.copies.move_of_fails (Broker.step_move h)
      (fun m hm _ => hs.staged m (Broker.staged_of_offered hm))
      (fun key entry _ hentry _ _ => hs.copies.inFlight key entry hentry)
      fun key entry hkey hentry hretry _ => ?_
    -- A delivery that is dead-lettered leaves room for the prefix.
    have hkey : s.failing a = some key := hkey
    have hentry : s.engine.in_flight.lookup key = some entry := hentry
    have hretry : cfg.max_retries ≤ entry.retry_count := hretry
    have hroom : entry.msg.topic.length + 5 < 2 ^ 16 ∧
        2 + (entry.msg.topic.length + 5) + entry.msg.body.length < 2 ^ 32 := by
      simpa [hkey, hentry, not_lt.mpr hretry] using hfail
    have hlen : (dlqPrefix ++ entry.msg.topic).length = entry.msg.topic.length + 5 := by
      rw [List.length_append, Broker.length_dlqPrefix, Nat.add_comm]
    show (dlqPrefix ++ entry.msg.topic).length < 2 ^ 16 ∧
      2 + (dlqPrefix ++ entry.msg.topic).length + entry.msg.body.length < 2 ^ 32
    rwa [hlen]
  · rintro m (⟨c, hc, hm⟩ | hm)
    · obtain ⟨k, hk⟩ := List.mem_iff_getElem?.mp hc
      -- A message in the hands of a thread was there before, or came in a frame.
      cases Broker.step_came h hk with
      | same hk => exact hs.staged m (.inl ⟨c, List.mem_of_getElem? hk, hm⟩)
      | elsewhere hmessage => simp [hmessage] at hm
      | publish m' hpc hm' hfits horigins htrace =>
        obtain rfl : m' = m := by simpa [hpc, Broker.ClientPc.message] using hm
        exact fitsFrame_of_published h htrace
      | append m' c₀ ha hk hpc₀ hpc =>
        obtain rfl : m' = m := by simpa [hpc, Broker.ClientPc.message] using hm
        have hold : c₀.pc.message = some m' := by rw [hpc₀]; rfl
        exact hs.staged m' (.inl ⟨c₀, List.mem_of_getElem? hk, hold⟩)
      | ack msg_id type payload ha htype c₀ hk hsock hpc
      | ackEngine msg_id c₀ ha hk hpc₀ hsock hpc => simp [hpc, Broker.ClientPc.message] at hm
    · rcases Broker.step_logger h hm with hm | ⟨-, -, -, htrace⟩
      · exact hs.staged m (.inr hm)
      · -- The audit event of a letter for which there is room.
        obtain ⟨letter, rfl, hpc, htopic, hbody⟩ := audit_of_audited h htrace
        have hroom : 2 + 8 + (Broker.State.auditBody letter).length < 2 ^ 32 := by
          simpa [hpc] using haudit
        have hlen : Broker.sysDlqTopic.length = 8 := by decide
        unfold FitsFrame
        rw [htopic, hbody, hlen]
        exact ⟨by norm_num, hroom⟩

/-- After a start, what was replayed is all there is. -/
theorem fitting_of_start (hstart : Broker.State.start cfg file order = some s)
    (hfile : ∀ m ∈ order, FitsFrame m) : Fitting s := by
  have hreplayed : ∀ m ∈ Broker.State.replayed order, FitsFrame m := by
    intro m hm
    obtain ⟨⟨m', i⟩, hmem, rfl⟩ := List.mem_map.mp hm
    exact hfile m' (List.fst_mem_of_mem_zipIdx hmem)
  refine ⟨?_, fun m hm => absurd hm (Broker.not_staged_of_start hstart m)⟩
  rw [Broker.flow_of_start hstart]
  exact ⟨hreplayed, by simp, by simp, by simp, by simp⟩

/-- In every run, from a start whose replayed messages fit a frame, whose steps all leave room: the
frame of every message that the dispatcher has popped is well formed. -/
theorem frames_well_formed (hstart : Broker.State.start cfg file order = some s)
    (hfile : ∀ m ∈ order, FitsFrame m)
    (hrun : Run (Broker.State.step cfg) (leavesRoom cfg · ·) s as t)
    (hm : t.dispatcher.message = some m) : WellFormed m := by
  have hfitting : Fitting t :=
    hrun.invariant (fun _ _ _ hs hok h => hs.step hok h) (fitting_of_start hstart hfile)
  exact (wellFormed_iff m).mpr (hfitting.copies.hand m hm)

/-! ## A topic that is too long to be dead-lettered -/

/-- A broker that dead-letters at the first failure. -/
def noRetries : Broker.Config := ⟨4, 0, 5000⟩

/-- A client subscribes to everything and publishes on a topic, and refuses what it gets; the
dispatcher pops the dead letter. -/
def refusedLetter (topic : Bytes) : List Broker.Action :=
  [.accept 5, .frame 0 0x02 0 [0, 1, 0x2A, 0, 0], .frame 0 0x01 0 (be 2 topic.length ++ topic),
    .client 0, .client 0, .pop, .route [⟨[0x2A], ascii "__unique_5", 5⟩], .track 0, .send,
    .frame 0 0x04 1 [], .client 0, .client 0, .log, .log, .pop]

/-- A dead letter on a short topic has a well-formed frame. -/
theorem frames_well_formed_refusedLetter :
    ∃ t, execChecked (Broker.State.step noRetries) (leavesRoom noRetries · ·)
        (Broker.State.init noRetries) (refusedLetter (ascii "t")) = some t ∧
      t.dispatcher.message = some ⟨1, ascii "$DLQ.t", [], 0, 0⟩ ∧
      WellFormed ⟨1, ascii "$DLQ.t", [], 0, 0⟩ := by
  have hend : (execChecked (Broker.State.step noRetries) (leavesRoom noRetries · ·)
      (Broker.State.init noRetries) (refusedLetter (ascii "t"))).any
      (fun t => t.dispatcher.message = some ⟨1, ascii "$DLQ.t", [], 0, 0⟩) := by decide
  obtain ⟨t, ht, hm⟩ := (Option.any_eq_true _ _).mp hend
  have hm := of_decide_eq_true hm
  have hrun := run_of_execChecked ht
  exact ⟨t, ht, hm, frames_well_formed (Broker.State.start_nil _) (by simp) hrun hm⟩

/-- The broker after the client has subscribed. -/
def subscribedToAll : Broker.State := { Broker.State.init noRetries with
  clients := AList.insert 5 0 ∅
  conns := [⟨5, .reading⟩]
  router := Broker.TopicRouter.subscribe .empty [0x2A] [] 5 }

/-- The broker after the client has published on the topic. -/
def publishedOn (topic : Bytes) : Broker.State := { subscribedToAll with
  next_id := 2
  origins := 1
  conns := [⟨5, .publishAppend ⟨1, topic, [], 0, 0⟩⟩]
  trace := [.published 0 ⟨1, topic, [], 0, 0⟩] }

/-- The broker after the dispatcher has popped the message. -/
def poppedOn (topic : Bytes) : Broker.State := { subscribedToAll with
  next_id := 2
  origins := 1
  wal := (Broker.WalWriter.create []).add (.publish 1 topic [])
  dispatcher := .popped ⟨1, topic, [], 0, 0⟩
  trace := [.published 0 ⟨1, topic, [], 0, 0⟩, .enqueued ⟨1, topic, [], 0, 0⟩] }

/-- The broker after the dispatcher has routed the message. -/
def routedOn (topic : Bytes) : Broker.State := { poppedOn topic with
  router := (poppedOn topic).router.advance topic
  dispatcher := .tracking ⟨1, topic, [], 0, 0⟩ ⟨[0x2A], ascii "__unique_5", 5⟩ []
  trace := (poppedOn topic).trace ++
    [.routed ⟨1, topic, [], 0, 0⟩ [⟨[0x2A], ascii "__unique_5", 5⟩]] }

/-- The message is published, on any topic that a PUBLISH frame can carry. -/
theorem step_publishedOn {topic : Bytes} (hne : topic ≠ []) (hlt : topic.length < 2 ^ 16) :
    Broker.State.step noRetries subscribedToAll (.frame 0 0x01 0 (be 2 topic.length ++ topic)) =
      some (publishedOn topic) := by
  have hpublish : Broker.decodePublish (be 2 topic.length ++ topic) = ⟨topic, []⟩ := by
    simpa using decodePublish_eq hlt []
  have hempty : topic.isEmpty = false := by simpa using hne
  have hlen : (be 2 topic.length ++ topic).length < 2 ^ 32 := by
    rw [List.length_append, length_be]
    omega
  show (if _ then some (Broker.State.onFrame _ 0 ⟨5, .reading⟩ 0x01 0 _) else none) = _
  rw [if_pos ⟨rfl, hlen⟩]
  show some (if (Broker.decodePublish (be 2 topic.length ++ topic)).topic.isEmpty then _ else _) = _
  rw [hpublish, hempty]
  rfl

/-- It is routed to the client. -/
theorem step_routedOn (topic : Bytes) :
    Broker.State.step noRetries (poppedOn topic) (.route [⟨[0x2A], ascii "__unique_5", 5⟩]) =
      some (routedOn topic) := by
  have hmatch : Broker.TopicRouter.topicMatches [0x2A] topic = true := by
    unfold Broker.TopicRouter.topicMatches
    split_ifs
    · rfl
    · rfl
  have hroute : (poppedOn topic).router.targets topic = [⟨[0x2A], ascii "__unique_5", 5⟩] := by
    show (if Broker.TopicRouter.topicMatches [0x2A] topic then _ else _) ++ [] = _
    rw [hmatch]
    rfl
  show (if [_].Perm ((poppedOn topic).router.targets topic) then _ else none) = _
  rw [if_pos (by rw [hroute])]
  rfl

/-- The dispatcher pops the dead letter, whatever the topic. -/
theorem exec_refusedLetter {topic : Bytes} (hne : topic ≠ []) (hlt : topic.length < 2 ^ 16) :
    ∃ t, exec (Broker.State.step noRetries) (Broker.State.init noRetries) (refusedLetter topic) =
        some t ∧
      t.dispatcher.message = some ⟨1, dlqPrefix ++ topic, [], 0, 0⟩ := by
  -- The topic is symbolic: the two steps that look at it have lemmas of their own.
  have hbefore : exec (Broker.State.step noRetries) (Broker.State.init noRetries)
      [.accept 5, .frame 0 0x02 0 [0, 1, 0x2A, 0, 0]] = some subscribedToAll := rfl
  have hpopped : exec (Broker.State.step noRetries) (publishedOn topic)
      [.client 0, .client 0, .pop] = some (poppedOn topic) := rfl
  obtain ⟨t, ht, hm⟩ : ∃ t, exec (Broker.State.step noRetries) (routedOn topic)
      [.track 0, .send, .frame 0 0x04 1 [], .client 0, .client 0, .log, .log, .pop] = some t ∧
      t.dispatcher.message = some ⟨1, dlqPrefix ++ topic, [], 0, 0⟩ := ⟨_, rfl, rfl⟩
  have hrun := (run_of_exec hbefore).snoc trivial (step_publishedOn hne hlt)
  have hrun := (hrun.append (run_of_exec hpopped)).snoc trivial (step_routedOn topic)
  exact ⟨t, (hrun.append (run_of_exec ht)).exec_eq, hm⟩

/-- A topic that is too long makes the frame longer than its header says. -/
theorem overflow_of_length (htopic : m.topic.length = 65540) (hbody : m.body = []) :
    ¬WellFormed m ∧ (eventFrame m).length =
      HEADER_SIZE + (Gateway.decodeHeader (eventFrame m)).payloadLen + 65536 := by
  refine ⟨fun hwell => ?_, ?_⟩
  · have hfits := ((wellFormed_iff m).mp hwell).1
    rw [htopic] at hfits
    norm_num at hfits
  · rw [length_eventFrame, payloadLen_eventFrame, htopic, hbody]
    norm_num [HEADER_SIZE]

/-- The longest topic that can be published: its dead letter's frame is 65536 bytes longer than its
header says. -/
theorem dead_letter_overflows :
    ∃ t m, exec (Broker.State.step noRetries) (Broker.State.init noRetries)
        (refusedLetter (List.replicate 65535 0x61)) = some t ∧ t.dispatcher.message = some m ∧
      ¬WellFormed m ∧ (eventFrame m).length =
        HEADER_SIZE + (Gateway.decodeHeader (eventFrame m)).payloadLen + 65536 := by
  have hlen : (List.replicate 65535 (0x61 : UInt8)).length = 65535 := List.length_replicate
  have hne : List.replicate 65535 (0x61 : UInt8) ≠ [] := by
    rw [ne_eq, List.replicate_eq_nil_iff]
    norm_num
  obtain ⟨t, ht, hm⟩ := exec_refusedLetter hne (by rw [hlen]; norm_num)
  have htopic : (dlqPrefix ++ List.replicate 65535 (0x61 : UInt8)).length = 65540 := by
    rw [List.length_append, hlen, Broker.length_dlqPrefix]
  exact ⟨t, _, ht, hm, overflow_of_length htopic rfl⟩

end EventQueue.Bridge
