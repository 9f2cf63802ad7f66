import Mathlib.Data.List.Perm.Subperm
import EventQueue.Bridge.EventFrames
import EventQueue.Bridge.Framing
import EventQueue.Broker.SendTo
import EventQueue.Gateway.Outbound

/-!
# The link between the broker and the gateway

From the calls on the one side of a connection to the handlers on the other. The broker's threads
call `send_to`, each call waits for `send_mu`, `::send` accepts any part of what it is given, the
kernel delivers any part of that, cut into any chunks, and `#parseFrames` emits what it finds. The
gateway calls `send`, which writes now or queues, the socket is corked and uncorked, and
`handle_client` hands over what it finds.

Neither reader ever takes a stream that was broken off for a bad one (`run_of_prefix`), so what
arrives is what was sent, up to some point: `downlink_delivers` for the one direction, and
`uplink_delivers` for the other. The frames of the gateway are compared by what `on_frame` makes of
them (`Command`).
-/

namespace EventQueue.Bridge

open Broker (Connection SendAction RawFrame Message)
open Broker.Connection (StaysBroken)
open Gateway (Frame MsgType HEADER_SIZE frameCodec TcpClient Chunk Outbound OutboundEvent Journal
  received)
open Gateway.TcpClient (badHeader)
open Transition (Run exec execChecked run_of_exec run_of_execChecked)

/-! ## A stream that is broken off -/

/-- A frame that is broken off does not begin with a bad header. -/
theorem badHeader_torn {f : Frame} {torn : Bytes} (hf : frameCodec.Valid f)
    (htorn : torn <+: f.encode) : badHeader torn = false := by
  obtain ⟨more, hmore⟩ := htorn
  by_cases hlen : HEADER_SIZE ≤ torn.length
  · have hheader := Gateway.decodeHeader_append hlen more
    have hwhole := Gateway.decodeHeader_encode hf []
    rw [List.append_nil, ← hmore, hheader] at hwhole
    simp [badHeader, hwhole]
  · simp [badHeader, hlen]

/-- From the beginning of a stream of frames, the first of them are read, and what is left does not
begin with a bad header. From the whole stream, all are. -/
theorem run_of_prefix {fs : List Frame} {bs : Bytes} (hfs : ∀ f ∈ fs, frameCodec.Valid f)
    (hbs : bs <+: frameCodec.encodeAll fs) :
    (frameCodec.run bs).1 <+: fs ∧ badHeader (frameCodec.run bs).2 = false ∧
      (bs = frameCodec.encodeAll fs → frameCodec.run bs = (fs, [])) := by
  have htake : bs = (frameCodec.encodeAll fs).take bs.length := List.prefix_iff_eq_take.mp hbs
  obtain ⟨torn, hsplit, hend⟩ := frameCodec.exists_take_encodeAll fs bs.length
  rw [← htake] at hsplit
  have hwhole : frameCodec.whole fs bs.length <+: fs := frameCodec.whole_isPrefix fs bs.length
  have hvalid : ∀ f ∈ frameCodec.whole fs bs.length, frameCodec.Valid f := fun f hf =>
    hfs f (hwhole.subset hf)
  have htorn : torn = [] ∨ ∃ f, frameCodec.Valid f ∧ torn <+: f.encode ∧ torn ≠ f.encode := by
    rcases hend with h | ⟨f, hf, h⟩
    · exact .inl h
    · exact .inr ⟨f, hfs f hf, h⟩
  have hrun := frameCodec.run_torn hvalid htorn
  rw [hsplit, hrun]
  refine ⟨hwhole, ?_, fun heq => ?_⟩
  · rcases htorn with rfl | ⟨f, hf, hpre, -⟩
    · rfl
    · exact badHeader_torn hf hpre
  · rw [← hrun, heq, frameCodec.run_encodeAll hfs]

/-- A client whose bytes never look like a bad header keeps its socket, and emits their frames. -/
theorem receive_of_good {c : TcpClient} (chunks : List Chunk) (hc : c.destroyed = false)
    (hstop : frameCodec.dec c.pending = none)
    (hgood : badHeader (frameCodec.run (c.pending ++ received chunks)).2 = false) :
    (c.receive chunks).1.destroyed = false ∧
      (c.receive chunks).2 = (frameCodec.run (c.pending ++ received chunks)).1 ∧
      (c.receive chunks).1.pending = (frameCodec.run (c.pending ++ received chunks)).2 := by
  induction chunks generalizing c with
  | nil => simp [TcpClient.receive, received, hc, frameCodec.run_of_none hstop]
  | cons chunk chunks ih =>
    obtain ⟨hframes, hpending, hdestroyed⟩ := c.data_eq chunk
    have hreceived : c.pending ++ received (chunk :: chunks) =
        (c.pending ++ chunk.bytes) ++ received chunks := by
      simp [received]
    rw [hreceived, frameCodec.run_append] at hgood ⊢
    -- A bad header after this chunk would still be there at the end.
    have hfirst : badHeader (frameCodec.run (c.pending ++ chunk.bytes)).2 = false := by
      by_contra hbad
      rw [Bool.not_eq_false] at hbad
      obtain ⟨hlater, hrun⟩ := Gateway.badHeader_append hbad (received chunks)
      rw [hrun] at hgood
      exact absurd hgood (by simp [hlater])
    rw [hfirst, hc] at hdestroyed
    rw [hfirst, if_neg Bool.false_ne_true] at hpending
    obtain ⟨halive, hrest, hleft⟩ := ih (c := (c.data chunk).1) hdestroyed
      (by rw [hpending]; exact frameCodec.dec_run_snd _) (by rw [hpending]; exact hgood)
    simp only [TcpClient.receive, hc, Bool.false_eq_true, if_false]
    exact ⟨halive, by rw [hrest, hframes, hpending], by rw [hleft, hpending]⟩

/-! ## From the broker to the gateway -/

/-- A frame that the broker hands to `send_to`: that of a message whose lengths fit, or the answer
to a heartbeat. -/
inductive Outgoing
  | event (m : Message) (fits : FitsFrame m)
  | heartbeat

namespace Outgoing

/-- The bytes that `send_to` gets. -/
def bytes : Outgoing → Bytes
  | event m _ => eventFrame m
  | heartbeat => Broker.encodeAckFrame .heartbeat 0

/-- The frame that the gateway should emit. -/
def frame : Outgoing → Frame
  | event m _ => dataFrame .eventData m.msg_id m.topic m.body
  | heartbeat => ⟨MsgType.heartbeat.toByte, 0, []⟩

/-- The event that `#dispatchEvent` should get. -/
def content : Outgoing → Option (JsString × UInt64 × Bytes)
  | event m _ => some (JsString.ofUtf8 m.topic, m.msg_id, m.body)
  | heartbeat => none

theorem valid_frame (out : Outgoing) : frameCodec.Valid out.frame := by
  cases out with
  | event m fits =>
    show (dataFrame .eventData m.msg_id m.topic m.body).payload.length < 2 ^ 32
    have hfits := fits.2
    simp only [dataFrame, List.length_append, BigEndian.length_be]
    omega
  | heartbeat => exact Nat.two_pow_pos 32

/-- `send_to` gets the bytes of the frame. -/
theorem bytes_eq (out : Outgoing) : out.bytes = out.frame.encode := by
  cases out with
  | event m fits => exact eventFrame_eq fits
  | heartbeat => rfl

end Outgoing

/-- What the handler of `frame` takes from a frame: the arguments of `#dispatchEvent`. -/
def dispatched (f : Frame) : Option (JsString × UInt64 × Bytes) :=
  if f.type = MsgType.eventData.toByte then
    some ((Gateway.decodeEventPayload f.payload).1, f.msgId,
      (Gateway.decodeEventPayload f.payload).2)
  else none

/-- The gateway takes from a frame what the broker meant. -/
theorem dispatched_frame (out : Outgoing) : dispatched out.frame = out.content := by
  cases out with
  | event m fits =>
    have hpayload := decodeEventPayload_dataFrame fits.1 .eventData m.msg_id m.body
    show some _ = some (JsString.ofUtf8 m.topic, m.msg_id, m.body)
    rw [show (Outgoing.event m fits).frame = dataFrame .eventData m.msg_id m.topic m.body from rfl,
      hpayload]
    rfl
  | heartbeat => rfl

/-- A frame that `send_to` is called with. -/
def submitted : SendAction → Option Bytes
  | .sendTo frame => some frame
  | _ => none

/-- Each frame that took the lock, or waits for it, was submitted, and none was lost as long as the
client is there. -/
structure Taken (c : Connection) (frames : List Bytes) : Prop where
  /-- None is sent that was not submitted, and none more often. -/
  subperm : (c.frames ++ c.waiting).Subperm frames
  /-- Each is sent, or waits. -/
  perm : c.present = true → (c.frames ++ c.waiting).Perm frames

/-- Every step takes what is submitted. -/
theorem Taken.step {c d : Connection} {a : SendAction} {frames : List Bytes}
    (hc : Taken c frames) (h : c.step a = some d) :
    Taken d (frames ++ (submitted a).toList) := by
  cases a with
  | sendTo frame =>
    simp only [Connection.step] at h
    split_ifs at h with hpresent <;> obtain rfl := Option.some.inj h
    · have hperm : (c.frames ++ (c.waiting ++ [frame])).Perm (frames ++ [frame]) := by
        rw [← List.append_assoc]
        exact (hc.perm hpresent).append_right [frame]
      exact ⟨hperm.subperm, fun _ => hperm⟩
    · exact ⟨hc.subperm.trans (List.sublist_append_left _ _).subperm, fun hp => absurd hp hpresent⟩
  | disconnect =>
    obtain rfl := Option.some.inj h
    simp only [submitted, Option.toList_none, List.append_nil]
    exact ⟨hc.subperm, by simp⟩
  | lock i =>
    simp only [Connection.step] at h
    simp only [submitted, Option.toList_none, List.append_nil]
    split at h
    · rename_i frame hfree hframe
      obtain rfl := Option.some.inj h
      -- The frame goes from those that wait to those that took the lock.
      have hmoved : (c.frames ++ [frame] ++ c.waiting.eraseIdx i).Perm (c.frames ++ c.waiting) := by
        obtain ⟨hlt, rfl⟩ := List.getElem?_eq_some_iff.mp hframe
        rw [List.append_assoc]
        exact (List.getElem_cons_eraseIdx_perm hlt).append_left c.frames
      exact ⟨hmoved.subperm.trans hc.subperm, fun hp => hmoved.trans (hc.perm hp)⟩
    · cases h
  | send sent =>
    simp only [Connection.step] at h
    simp only [submitted, Option.toList_none, List.append_nil]
    split at h
    · cases h
    · split_ifs at h <;> obtain rfl := Option.some.inj h <;> exact ⟨hc.subperm, hc.perm⟩
  | unlock =>
    simp only [Connection.step] at h
    simp only [submitted, Option.toList_none, List.append_nil]
    split at h
    · cases h
    · split_ifs at h
      obtain rfl := Option.some.inj h
      exact ⟨hc.subperm, hc.perm⟩

theorem filterMap_singleton (a : SendAction) :
    [a].filterMap submitted = (submitted a).toList := by
  cases a <;> rfl

/-- So does every run. -/
theorem taken_of_run {ok : Connection → SendAction → Prop} {as : List SendAction} {c : Connection}
    (hrun : Run Connection.step ok Connection.init as c) :
    Taken c (as.filterMap submitted) := by
  induction hrun with
  | nil => exact ⟨List.nil_subperm, fun _ => List.Perm.refl _⟩
  | snoc _ _ hstep ih =>
    rw [List.filterMap_append, filterMap_singleton]
    exact ih.step hstep

/-- What is sent of some frames that were submitted, in terms of what they stand for. -/
theorem exists_sent {outs : List Outgoing} {frames : List Bytes}
    (h : frames.Subperm (outs.map Outgoing.bytes)) :
    ∃ sent : List Outgoing, sent.Subperm outs ∧ frames = sent.map Outgoing.bytes := by
  obtain ⟨_, hperm, hsub⟩ := h
  obtain ⟨some', hsome, rfl⟩ := List.sublist_map_iff.mp hsub
  have hcomp : Relation.Comp (· = List.map Outgoing.bytes ·) (List.Perm ·) frames some' := by
    rw [List.eq_map_comp_perm]
    exact hperm.symm
  obtain ⟨sent, hsent, hperm'⟩ := hcomp
  exact ⟨sent, hperm'.subperm.trans hsome.subperm, hsent⟩

/-- The bytes of what is sent are those of its frames. -/
theorem flatten_bytes (sent : List Outgoing) :
    (sent.map Outgoing.bytes).flatten = frameCodec.encodeAll (sent.map Outgoing.frame) := by
  induction sent with
  | nil => rfl
  | cons out sent ih =>
    rw [List.map_cons, List.flatten_cons, ih, List.map_cons, Codec.encodeAll_cons, out.bytes_eq]
    rfl

/-- What the handler takes from the frames of what is sent. -/
theorem filterMap_dispatched (sent : List Outgoing) :
    (sent.map Outgoing.frame).filterMap dispatched = sent.filterMap Outgoing.content := by
  rw [List.filterMap_map]
  congr 1
  funext out
  exact dispatched_frame out

/-- From any threads' calls of `send_to` on one connection to the gateway, in every run in which a
socket that has failed accepts nothing more: whatever part of what was accepted has arrived, in
whatever chunks, a client that begins the connection with nothing pending never takes it for a bad
stream. It emits the first of the frames in the order in which their calls took the lock, each once,
and `#dispatchEvent` gets the topics, identifiers, and bodies of their messages in that order. When
nothing failed, no call is left, and everything has arrived, these are all frames that were
submitted. -/
theorem downlink_delivers (outs : List Outgoing) (as : List SendAction) (c : Connection)
    (hrun : Run Connection.step StaysBroken Connection.init as c)
    (hout : as.filterMap submitted = outs.map Outgoing.bytes)
    (client : TcpClient) (hclient : client.pending = []) (chunks : List Chunk)
    (hchunks : received chunks <+: c.accepted) :
    let after := client.onConnect.1.receive chunks
    after.1.destroyed = false ∧
      ∃ sent : List Outgoing, sent.Subperm outs ∧ c.frames = sent.map Outgoing.bytes ∧
        after.2 <+: sent.map Outgoing.frame ∧
        after.2.filterMap dispatched <+: sent.filterMap Outgoing.content ∧
        (c.failed = false → c.sending = none → c.waiting = [] → c.present = true →
          received chunks = c.accepted →
            sent.Perm outs ∧ after.2 = sent.map Outgoing.frame ∧ after.1.pending = []) := by
  intro after
  have hframed : Broker.Connection.Framed c :=
    hrun.invariant (fun _ _ _ hc hok h => hc.step hok h) Broker.Connection.framed_init
  have htaken := taken_of_run hrun
  rw [hout] at htaken
  obtain ⟨sent, hsent, hframes⟩ :=
    exists_sent ((List.sublist_append_left c.frames c.waiting).subperm.trans htaken.subperm)
  have hvalid : ∀ f ∈ sent.map Outgoing.frame, frameCodec.Valid f := by
    intro f hf
    obtain ⟨out, -, rfl⟩ := List.mem_map.mp hf
    exact out.valid_frame
  -- What has arrived is the beginning of the frames' bytes.
  have hbytes : received chunks <+: frameCodec.encodeAll (sent.map Outgoing.frame) := by
    rw [← flatten_bytes, ← hframes]
    exact hchunks.trans hframed.framed
  obtain ⟨hread, hgood, hall⟩ := run_of_prefix hvalid hbytes
  have hpending : client.onConnect.1.pending = [] := hclient
  have hreceive := receive_of_good (c := client.onConnect.1) chunks rfl
    (by rw [hpending]; rfl) (by rw [hpending]; exact hgood)
  rw [hpending, List.nil_append] at hreceive
  obtain ⟨halive, hemitted, hleft⟩ := hreceive
  have hafter : after.2 <+: sent.map Outgoing.frame := by
    show (client.onConnect.1.receive chunks).2 <+: _
    rwa [hemitted]
  refine ⟨halive, sent, hsent, hframes, hafter, ?_, ?_⟩
  · rw [← filterMap_dispatched]
    exact hafter.filterMap dispatched
  · intro hfine hfree hnone hpresent harrived
    -- All that was submitted is through.
    have hthrough : received chunks = frameCodec.encodeAll (sent.map Outgoing.frame) := by
      rw [harrived, hframed.idle hfine hfree, hframes, flatten_bytes]
    have hrun' := hall hthrough
    refine ⟨?_, ?_, ?_⟩
    · have hperm := (htaken.perm hpresent).length_eq
      rw [hnone, List.append_nil, hframes, List.length_map, List.length_map] at hperm
      exact hsent.perm_of_length_le hperm.ge
    · exact hemitted.trans (congrArg Prod.fst hrun')
    · exact hleft.trans (congrArg Prod.snd hrun')

/-- Two events for one topic, in the order in which `send_to` is called with them. -/
def twoOutgoing : List Outgoing :=
  [.event ⟨2, ascii "t", ascii "b", 0, 0⟩ (by decide),
    .event ⟨1, ascii "t", ascii "a", 0, 0⟩ (by decide)]

/-- The call that came second takes the lock first, and the socket fails in the middle of the other
frame: the gateway gets one event. -/
theorem downlink_delivers_twoEvents :
    ∃ c, execChecked Connection.step StaysBroken Connection.init Broker.Connection.twoEvents =
        some c ∧
      ∃ sent : List Outgoing, sent.Subperm twoOutgoing ∧ c.frames = sent.map Outgoing.bytes ∧
        (((TcpClient.create Gateway.READ_BUF_SIZE fun _ => 0).onConnect.1.receive
          [⟨c.accepted.take 7, fun _ => 0⟩, ⟨c.accepted.drop 7, fun _ => 0⟩]).2.filterMap
            dispatched <+: sent.filterMap Outgoing.content) := by
  obtain ⟨c, hc⟩ := Option.isSome_iff_exists.mp (show (execChecked Connection.step StaysBroken
    Connection.init Broker.Connection.twoEvents).isSome = true by decide)
  have hreceived : received [⟨c.accepted.take 7, fun _ => 0⟩, ⟨c.accepted.drop 7, fun _ => 0⟩] =
      c.accepted := by
    simp [received]
  obtain ⟨-, sent, hsent, hframes, -, hevents, -⟩ :=
    downlink_delivers twoOutgoing Broker.Connection.twoEvents c (run_of_execChecked hc) (by decide)
      (TcpClient.create Gateway.READ_BUF_SIZE fun _ => 0) rfl
      [⟨c.accepted.take 7, fun _ => 0⟩, ⟨c.accepted.drop 7, fun _ => 0⟩] (by rw [hreceived])
  exact ⟨c, hc, sent, hsent, hframes, hevents⟩

/-! ## From the gateway to the broker -/

/-- What `on_frame` takes a frame for, with what it decodes of it. -/
inductive Command
  | subscribe (topic group : Bytes)
  | publish (msg_id : UInt64) (topic body : Bytes)
  | ack (msg_id : UInt64)
  | nack (msg_id : UInt64)
  | heartbeat
  /-- The frame that stands for a disconnection. -/
  | disconnected
  /-- A frame of a type that it does not handle, or without a topic. -/
  | ignored
deriving DecidableEq, Repr

/-- The case of SUBSCRIBE. -/
def Command.ofSubscribe (sub : Broker.ParsedSubscribe) : Command :=
  if sub.topic.isEmpty then .ignored else .subscribe sub.topic sub.group

/-- The case of PUBLISH. -/
def Command.ofPublish (msg_id : UInt64) (pub : Broker.ParsedPublish) : Command :=
  if pub.topic.isEmpty then .ignored else .publish msg_id pub.topic pub.body

/-- The `switch` of `on_frame`. -/
def Command.ofFrame (f : RawFrame) : Command :=
  match Broker.MessageType.ofByte f.type with
  | some .subscribe => .ofSubscribe (Broker.decodeSubscribe f.payload)
  | some .publish => .ofPublish f.msg_id (Broker.decodePublish f.payload)
  | some .ack => .ack f.msg_id
  | some .nack => .nack f.msg_id
  | some .heartbeat => .heartbeat
  | some .errorResp => .disconnected
  | some .eventData | none => .ignored

/-- What `on_frame` does on a command. -/
def Command.perform (s : Broker.State) (n : ℕ) (c : Broker.Conn) : Command → Broker.State
  | .subscribe topic group => { s with router := s.router.subscribe topic group c.sock }
  | .publish msg_id topic body =>
    let m : Message :=
      { msg_id := if msg_id ≠ 0 then msg_id else s.next_id
        topic
        body
        retry_count := 0
        origin := s.origins }
    { s with
      next_id := if msg_id ≠ 0 then s.next_id else s.next_id + 1
      origins := s.origins + 1
      conns := Broker.goTo s.conns n (.publishAppend m)
      trace := s.trace ++ [.published n m] }
  | .ack msg_id =>
    { s with
      conns := Broker.goTo s.conns n (.ackEngine msg_id)
      trace := s.trace ++ [.acked c.sock msg_id] }
  | .nack msg_id => { s with conns := Broker.goTo s.conns n (.nackLock msg_id) }
  | .heartbeat => { s with trace := s.trace ++ [.heartbeat c.sock] }
  | .disconnected => { s with conns := Broker.goTo s.conns n (.unsubscribe false) }
  | .ignored => s

/-- The handler of a frame depends on nothing but its command. -/
theorem Command.onFrame_eq (s : Broker.State) (n : ℕ) (c : Broker.Conn) (f : RawFrame) :
    s.onFrame n c f.type f.msg_id f.payload = (Command.ofFrame f).perform s n c := by
  unfold Broker.State.onFrame Command.ofFrame
  dsimp only
  cases Broker.MessageType.ofByte f.type with
  | none => rfl
  | some type =>
    cases type with
    | subscribe =>
      unfold ofSubscribe
      cases (Broker.decodeSubscribe f.payload).topic.isEmpty <;> rfl
    | publish =>
      unfold ofPublish
      cases (Broker.decodePublish f.payload).topic.isEmpty <;> rfl
    | _ => rfl

/-- What the gateway has the broker do. -/
inductive Request
  | publish (topic : JsString) (body : Bytes)
  | subscribe (topic group : JsString)
  | ack (msgId : ℤ)
  | nack (msgId : ℤ)
  | heartbeat
deriving DecidableEq, Repr

namespace Request

/-- The call of an encoder. -/
def encode : Request → Option Bytes
  | publish topic body => Gateway.encodeDataFrame .publish topic body 0
  | subscribe topic group => Gateway.encodeSubscribe topic group 0
  | ack msgId => Gateway.encodeAck .ack msgId
  | nack msgId => Gateway.encodeAck .nack msgId
  | heartbeat => Gateway.encodeHeartbeat

/-- What the broker should take it for. A message that is published gets its identifier there. -/
def command : Request → Command
  | publish topic body => .ofPublish 0 ⟨topic.toUtf8, body⟩
  | subscribe topic group => .ofSubscribe ⟨topic.toUtf8, group.toUtf8⟩
  | ack msgId => .ack (UInt64.ofNat msgId.toNat)
  | nack msgId => .nack (UInt64.ofNat msgId.toNat)
  | heartbeat => .heartbeat

end Request

/-- A number that is written fits. -/
theorem writeUInt_eq_some {k : ℕ} {n : ℤ} {bytes : Bytes}
    (h : Gateway.writeUInt k n = some bytes) :
    0 ≤ n ∧ n < 256 ^ k ∧ bytes = BigEndian.be k n.toNat := by
  unfold Gateway.writeUInt at h
  split_ifs at h with hfits
  exact ⟨hfits.1, hfits.2, (Option.some.inj h).symm⟩

/-- A header that is written is that of a frame. -/
theorem writeHeader_eq_some {type : MsgType} (payload : Bytes) {header : Bytes} {msgId : ℤ}
    (h : Gateway.writeHeader type payload.length msgId = some header) :
    payload.length < 2 ^ 32 ∧ header ++ payload =
      Frame.encode ⟨type.toByte, UInt64.ofNat msgId.toNat, payload⟩ := by
  simp only [Gateway.writeHeader, Option.bind_eq_bind, Option.pure_def,
    Option.bind_eq_some_iff] at h
  obtain ⟨len, hlen, ident, hident, heq⟩ := h
  obtain rfl := Option.some.inj heq
  obtain ⟨-, hlt, rfl⟩ := writeUInt_eq_some hlen
  obtain ⟨hnonneg, hid, rfl⟩ := writeUInt_eq_some hident
  have hnat : (UInt64.ofNat msgId.toNat).toNat = msgId.toNat := by
    rw [UInt64.toNat_ofNat', Nat.mod_eq_of_lt]
    norm_num at hid ⊢
    omega
  refine ⟨by norm_num at hlt ⊢; exact_mod_cast hlt, ?_⟩
  rw [Frame.encode, hnat, Int.toNat_natCast]

/-- A frame without a payload. -/
theorem exists_frame_of_writeHeader {type : MsgType} {msgId : ℤ} {bytes : Bytes}
    (h : Gateway.writeHeader type 0 msgId = some bytes) :
    frameCodec.Valid ⟨type.toByte, UInt64.ofNat msgId.toNat, []⟩ ∧
      bytes = Frame.encode ⟨type.toByte, UInt64.ofNat msgId.toNat, []⟩ := by
  obtain ⟨hvalid, hframe⟩ := writeHeader_eq_some [] h
  rw [List.append_nil] at hframe
  exact ⟨hvalid, hframe⟩

/-- What an encoder returns is the bytes of a frame that the broker takes for the request's
command. -/
theorem Request.exists_frame {r : Request} {bytes : Bytes} (h : r.encode = some bytes) :
    ∃ f : Frame, frameCodec.Valid f ∧ bytes = f.encode ∧ Command.ofFrame (toRaw f) = r.command := by
  cases r with
  | publish topic body =>
    simp only [Request.encode, Gateway.encodeDataFrame, Option.bind_eq_bind, Option.pure_def,
      Option.bind_eq_some_iff] at h
    obtain ⟨header, hheader, _, hlen, heq⟩ := h
    obtain ⟨-, htopic, rfl⟩ := writeUInt_eq_some hlen
    rw [Int.toNat_natCast] at heq
    have htopic : topic.toUtf8.length < 2 ^ 16 := by
      norm_num at htopic ⊢
      exact_mod_cast htopic
    have hlength : 2 + topic.toUtf8.length + body.length =
        (dataFrame .publish 0 topic.toUtf8 body).payload.length := by
      simp [dataFrame]
      omega
    rw [hlength] at hheader
    obtain ⟨hvalid, hframe⟩ := writeHeader_eq_some _ hheader
    refine ⟨dataFrame .publish 0 topic.toUtf8 body, hvalid, ?_, ?_⟩
    · rw [← Option.some.inj heq]
      simpa [dataFrame] using hframe
    · exact congrArg (Command.ofPublish 0) (decodePublish_eq htopic body)
  | subscribe topic group =>
    obtain ⟨htopic, hgroup, rfl⟩ := encodeSubscribe_eq_some 0 h
    refine ⟨_, ?_, rfl, congrArg Command.ofSubscribe (decodeSubscribe_eq htopic hgroup 0)⟩
    show (subscribeFrame 0 topic.toUtf8 group.toUtf8).payload.length < 2 ^ 32
    simp only [subscribeFrame, List.length_append, BigEndian.length_be]
    omega
  | ack msgId =>
    obtain ⟨hvalid, hbytes⟩ := exists_frame_of_writeHeader h
    exact ⟨_, hvalid, hbytes, rfl⟩
  | nack msgId =>
    obtain ⟨hvalid, hbytes⟩ := exists_frame_of_writeHeader h
    exact ⟨_, hvalid, hbytes, rfl⟩
  | heartbeat =>
    obtain ⟨hvalid, hbytes⟩ := exists_frame_of_writeHeader h
    exact ⟨_, hvalid, hbytes, rfl⟩

/-- The frames that an event hands to the client. -/
def handed : OutboundEvent → List Bytes
  | .connected listeners => listeners
  | .send frame => [frame]
  | .connect | .tick | .close | .stop => []

/-- All frames of a journal. -/
def journalFrames (j : Journal) : List Bytes := j.waiting ++ j.greeting ++ j.waited ++ j.later

/-- An event adds no other frames than those that it hands over. -/
theorem mem_journalFrames_next {j : Journal} {e : OutboundEvent} {frame : Bytes}
    (h : frame ∈ journalFrames (j.next e)) : frame ∈ journalFrames j ∨ frame ∈ handed e := by
  cases e with
  | connected listeners =>
    have h : frame ∈ listeners ∨ frame ∈ j.waiting := by simpa [journalFrames, Journal.next] using h
    rcases h with h | h
    · exact .inr h
    · exact .inl (by simp [journalFrames, h])
  | send frame' =>
    have h : frame ∈ journalFrames j ∨ frame = frame' := by
      simp only [journalFrames, Journal.next] at h ⊢
      split_ifs at h <;> simp at h ⊢ <;> tauto
    exact h.imp id fun heq => List.mem_singleton.mpr heq
  | connect =>
    have h : frame ∈ j.waiting := by simpa [journalFrames, Journal.next] using h
    exact .inl (by simp [journalFrames, h])
  | tick | close | stop => exact .inl h

/-- Every frame of the journal was handed to the client. -/
theorem mem_handed {es : List OutboundEvent} {frame : Bytes}
    (h : frame ∈ journalFrames (Journal.along es)) : frame ∈ es.flatMap handed := by
  induction es using List.reverseRecOn with
  | nil => cases h
  | append_singleton es e ih =>
    rw [Journal.along, List.foldl_concat] at h
    rw [List.flatMap_append, List.flatMap_singleton, List.mem_append]
    exact (mem_journalFrames_next h).imp ih id

/-- The requests and the frames of what the encoders have returned. -/
theorem exists_requests {written : List Bytes}
    (h : ∀ bytes ∈ written, ∃ r : Request, r.encode = some bytes) :
    ∃ (rs : List Request) (fs : List Frame), rs.map Request.encode = written.map some ∧
      (∀ f ∈ fs, frameCodec.Valid f) ∧ written.flatten = frameCodec.encodeAll fs ∧
      fs.map (fun f => Command.ofFrame (toRaw f)) = rs.map Request.command := by
  induction written with
  | nil => exact ⟨[], [], rfl, by simp, rfl, rfl⟩
  | cons bytes written ih =>
    obtain ⟨rs, fs, hrs, hvalid, hbytes, hcommands⟩ := ih fun b hb => h b (by simp [hb])
    obtain ⟨r, hr⟩ := h bytes (by simp)
    obtain ⟨f, hf, rfl, hcommand⟩ := r.exists_frame hr
    refine ⟨r :: rs, f :: fs, by simp [hr, hrs], ?_, ?_, by simp [hcommand, hcommands]⟩
    · rintro g (_ | ⟨_, hg⟩)
      · exact hf
      · exact hvalid g hg
    · rw [List.flatten_cons, hbytes, Codec.encodeAll_cons]
      rfl

/-- The broker's reader drops the connection exactly when a bad header is left. -/
theorem handleClient_dropped {read_buf : Bytes} (hbuf : frameCodec.dec read_buf = none)
    (hgood : badHeader read_buf = false) (chunks : List Bytes) :
    (Broker.handleClient read_buf chunks).2.2 =
      badHeader (frameCodec.run (read_buf ++ chunks.flatten)).2 := by
  induction chunks generalizing read_buf with
  | nil => simp [Broker.handleClient, frameCodec.run_of_none hbuf, hgood]
  | cons chunk chunks ih =>
    have hwhole := frameCodec.run_append (read_buf ++ chunk) chunks.flatten
    rw [Broker.handleClient, brokerLoop_eq le_rfl, List.flatten_cons, ← List.append_assoc, hwhole]
    dsimp only
    cases hbad : badHeader (frameCodec.run (read_buf ++ chunk)).2 with
    | true =>
      obtain ⟨hlater, hrun⟩ := Gateway.badHeader_append hbad chunks.flatten
      rw [hrun]
      exact hlater.symm
    | false => exact ih (frameCodec.dec_run_snd (read_buf ++ chunk)) hbad

/-- What the broker's reader does with the beginning of a stream of frames. -/
theorem handleClient_of_prefix {fs : List Frame} {cuts : List Bytes}
    (hfs : ∀ f ∈ fs, frameCodec.Valid f) (hcuts : cuts.flatten <+: frameCodec.encodeAll fs) :
    (Broker.handleClient [] cuts).2.2 = false ∧
      (Broker.handleClient [] cuts).1 <+: fs.map toRaw ∧
      (cuts.flatten = frameCodec.encodeAll fs →
        (Broker.handleClient [] cuts).1 = fs.map toRaw) := by
  obtain ⟨hread, hgood, hall⟩ := run_of_prefix hfs hcuts
  have hnil : frameCodec.dec [] = none := rfl
  have hframes := (handleClient_eq hnil cuts).1
  have hdropped := handleClient_dropped hnil rfl cuts
  rw [List.nil_append] at hframes hdropped
  refine ⟨hdropped.trans hgood, ?_, fun heq => ?_⟩
  · rw [hframes]
    exact hread.map toRaw
  · rw [hframes, hall heq]

/-- In every run of the gateway's client in which it is only handed what the encoders returned: what
the current socket has passed on is the beginning of some requests' frames, which are those that the
journal expects. However much of it has arrived at the broker, and in whatever pieces, the broker
does not drop the connection, and `on_frame` gets the commands of the first of the requests, in
order and each once. When no callback is to come and everything has arrived, it got all. -/
theorem uplink_delivers (readBufSize : ℕ) (memory : ℕ → UInt8) (es : List OutboundEvent)
    (o : Outbound) (hrun : Run Outbound.step (fun _ _ => True) (Outbound.create readBufSize memory)
      es o)
    (hhanded : ∀ bytes ∈ es.flatMap handed, ∃ r : Request, r.encode = some bytes)
    (socket : Gateway.Socket) (hsocket : o.socket = some socket) (cuts : List Bytes)
    (hcuts : cuts.flatten <+: socket.flushed.flatten) :
    ∃ rs : List Request, rs.map Request.encode = (Journal.along es).expected.map some ∧
      (Broker.handleClient [] cuts).2.2 = false ∧
      (Broker.handleClient [] cuts).1.map Command.ofFrame <+: rs.map Request.command ∧
      (o.ticks = 0 → cuts.flatten = socket.flushed.flatten →
        (Broker.handleClient [] cuts).1.map Command.ofFrame = rs.map Request.command) := by
  have hkeeps := Outbound.Run.keeps hrun
  have hwritten : socket.flushed ++ socket.buffered = (Journal.along es).expected :=
    hkeeps.written socket hsocket
  -- All that is expected was handed over, so the encoders have returned it.
  have hencoded : ∀ bytes ∈ (Journal.along es).expected, ∃ r : Request, r.encode = some bytes := by
    intro bytes hbytes
    refine hhanded bytes (mem_handed ?_)
    have hbytes : bytes ∈ (Journal.along es).greeting ∨ bytes ∈ (Journal.along es).waited ∨
        bytes ∈ (Journal.along es).later := by
      simp only [Journal.expected, List.mem_append, or_assoc] at hbytes
      exact hbytes.imp id fun h => h.imp List.mem_of_mem_take id
    simp only [journalFrames, List.mem_append]
    tauto
  obtain ⟨rs, fs, hrs, hvalid, hbytes, hcommands⟩ := exists_requests hencoded
  have hprefix : socket.flushed.flatten <+: frameCodec.encodeAll fs := by
    rw [← hbytes, ← hwritten, List.flatten_append]
    exact List.prefix_append _ _
  obtain ⟨hkept, hfirst, hall⟩ := handleClient_of_prefix hvalid (hcuts.trans hprefix)
  have hmap : (fs.map toRaw).map Command.ofFrame = rs.map Request.command := by
    rw [List.map_map, ← hcommands]
    rfl
  refine ⟨rs, hrs, hkept, ?_, fun hticks harrived => ?_⟩
  · rw [← hmap]
    exact hfirst.map Command.ofFrame
  · -- The socket is not corked, so that it has passed on everything.
    have hcorked : socket.corked = 0 := (hkeeps.corked socket hsocket).trans hticks
    have hflushed : socket.flushed = (Journal.along es).expected := by
      rw [← hwritten, hkeeps.passed socket hsocket hcorked, List.append_nil]
    rw [hall (by rw [harrived, hflushed, hbytes]), hmap]

/-- A subscription waits for the connection and a message is published on it; the broker gets a part
of what was written. -/
def subscribeThenPublish : List OutboundEvent :=
  [.connect, .send ((Request.subscribe (JsString.ofString "t") []).encode.getD []),
    .connected [], .send ((Request.publish (JsString.ofString "t") (ascii "1")).encode.getD []),
    .tick, .tick]

/-- It gets all commands, in two pieces. -/
theorem uplink_delivers_subscribeThenPublish :
    ∃ o socket, exec Outbound.step (Outbound.create Gateway.READ_BUF_SIZE fun _ => 0)
        subscribeThenPublish = some o ∧ o.socket = some socket ∧
      ∃ rs : List Request, rs.map Request.encode =
          (Journal.along subscribeThenPublish).expected.map some ∧
        (Broker.handleClient [] [socket.flushed.flatten.take 30,
          socket.flushed.flatten.drop 30]).1.map Command.ofFrame = rs.map Request.command := by
  obtain ⟨o, hexec⟩ : ∃ o, exec Outbound.step
      (Outbound.create Gateway.READ_BUF_SIZE fun _ => 0) subscribeThenPublish = some o := ⟨_, rfl⟩
  obtain ⟨socket, hsocket, hticks⟩ : ∃ socket, o.socket = some socket ∧ o.ticks = 0 := by
    obtain rfl := Option.some.inj hexec
    exact ⟨_, rfl, rfl⟩
  have hcuts : [socket.flushed.flatten.take 30, socket.flushed.flatten.drop 30].flatten =
      socket.flushed.flatten := by
    simp
  have hhanded : ∀ bytes ∈ subscribeThenPublish.flatMap handed,
      ∃ r : Request, r.encode = some bytes := by
    intro bytes hbytes
    have hbytes : bytes = (Request.subscribe (JsString.ofString "t") []).encode.getD [] ∨
        bytes = (Request.publish (JsString.ofString "t") (ascii "1")).encode.getD [] := by
      simpa [subscribeThenPublish, handed] using hbytes
    rcases hbytes with rfl | rfl
    · exact ⟨.subscribe (JsString.ofString "t") [], by decide⟩
    · exact ⟨.publish (JsString.ofString "t") (ascii "1"), by decide⟩
  obtain ⟨rs, hrs, -, -, hall⟩ := uplink_delivers Gateway.READ_BUF_SIZE (fun _ => 0)
    subscribeThenPublish o (run_of_exec hexec) hhanded socket hsocket
    [socket.flushed.flatten.take 30, socket.flushed.flatten.drop 30] (by rw [hcuts])
  exact ⟨o, socket, hexec, hsocket, rs, hrs, hall hticks hcuts⟩

end EventQueue.Bridge
