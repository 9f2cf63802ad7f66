import EventQueue.Gateway.TcpClient

/-!
# Connections of one client

A connection is the chunks that its socket brings, until it is closed or the client destroys it; its
frames should be those of the bytes that came on it. They are when nothing is pending as it begins.
The read buffer outlives the socket, though, so what a connection leaves pending (a frame that did
not arrive whole, or everything since the last shift when it ended with a bad header) is read as the
beginning of the next one.

`isolated_iff` is the exact condition: whatever the next connection brings, its frames are its own,
if and only if every connection so far ended with its last frame. When they did not, bytes are
pending for good, since a connection with the right frames leaves at least as many
(`pending_connection_eq_nil`), and then one more frame, whose type the bytes at its place do not
have, is read wrongly (`exists_misread`).
-/

namespace EventQueue.Gateway

namespace TcpClient

/-- The `data` events of a connection: the client after them, and the frames that it emitted. A
socket that is destroyed brings no more. -/
def receive (c : TcpClient) : List Chunk → TcpClient × List Frame
  | [] => (c, [])
  | chunk :: chunks =>
    if c.destroyed then (c, [])
    else
      let (c, frames) := c.data chunk
      let (c, frames') := receive c chunks
      (c, frames ++ frames')

/-- A whole connection. -/
def connection (c : TcpClient) (chunks : List Chunk) : TcpClient × List Frame :=
  let (c, frames) := c.onConnect.1.receive chunks
  (c.onDisconnect, frames)

/-- The frames of each of a sequence of connections. -/
def emitted : TcpClient → List (List Chunk) → List (List Frame)
  | _, [] => []
  | c, chunks :: conns => (c.connection chunks).2 :: emitted (c.connection chunks).1 conns

/-- The client after a sequence of connections. -/
def after : TcpClient → List (List Chunk) → TcpClient
  | c, [] => c
  | c, chunks :: conns => after (c.connection chunks).1 conns

end TcpClient

/-- The bytes that came on a connection. -/
def received (chunks : List Chunk) : Bytes := (chunks.map Chunk.bytes).flatten

/-- The frames of the bytes that came on a connection, and the bytes after the last of them. -/
def reference (chunks : List Chunk) : List Frame × Bytes := frameCodec.run (received chunks)

/-- The frames of each connection are those of its own bytes. -/
def Isolated (c : TcpClient) (conns : List (List Chunk)) : Prop :=
  c.emitted conns = conns.map fun chunks => (reference chunks).1

/-! ## Bytes and frames -/

/-- A bad header stays one, whatever follows. -/
theorem badHeader_append {bs : Bytes} (h : TcpClient.badHeader bs = true) (more : Bytes) :
    TcpClient.badHeader (bs ++ more) = true ∧ frameCodec.run (bs ++ more) = ([], bs ++ more) := by
  obtain ⟨hlen, hvalid⟩ : HEADER_SIZE ≤ bs.length ∧ (decodeHeader bs).valid = false := by
    simpa [TcpClient.badHeader] using h
  have hheader := decodeHeader_append hlen more
  refine ⟨?_, frameCodec.run_of_none (Frame.decode_eq_none fun _ hv => ?_)⟩
  · simp only [TcpClient.badHeader, hheader, hvalid, List.length_append]
    simp; omega
  · simp [hheader, hvalid] at hv

/-- The bytes of a stream are those of its frames and what is left. -/
theorem length_run (bs : Bytes) :
    bs.length = ((frameCodec.run bs).1.map fun f => HEADER_SIZE + f.payload.length).sum +
      (frameCodec.run bs).2.length := by
  induction bs using frameCodec.run_induction with
  | stop bs h => simp [frameCodec.run_of_none h]
  | item bs f rest h ih =>
    obtain ⟨-, -, hle, rfl, rfl⟩ := Frame.decode_eq_some.mp h
    rw [frameCodec.run_of_some h]
    simp only [List.length_drop] at ih
    simp only [List.map_cons, List.sum_cons, List.length_drop, List.length_take]
    omega

namespace TcpClient

variable {c : TcpClient} {chunks : List Chunk} {conns : List (List Chunk)}

/-- A connection that brings something emits the frames of what was pending and of its bytes. Unless
it comes upon a bad header, it leaves what follows them. -/
theorem receive_eq (hc : c.destroyed = false) (hne : chunks ≠ []) :
    (c.receive chunks).2 = (frameCodec.run (c.pending ++ received chunks)).1 ∧
      if badHeader (frameCodec.run (c.pending ++ received chunks)).2 then
        HEADER_SIZE ≤ (c.receive chunks).1.pending.length
      else (c.receive chunks).1.pending = (frameCodec.run (c.pending ++ received chunks)).2 := by
  induction chunks generalizing c with
  | nil => exact absurd rfl hne
  | cons chunk chunks ih =>
    obtain ⟨hframes, hpending, hdestroyed⟩ := c.data_eq chunk
    have hreceived : c.pending ++ received (chunk :: chunks) =
        (c.pending ++ chunk.bytes) ++ received chunks := by
      simp [received]
    rw [hc, Bool.false_or] at hdestroyed
    rw [hreceived, frameCodec.run_append, ← hframes]
    simp only [receive, hc, Bool.false_eq_true, if_false]
    cases hbad : badHeader (frameCodec.run (c.pending ++ chunk.bytes)).2 with
    | true =>
      -- The socket is destroyed, and the rest of the connection never comes.
      obtain ⟨hbad', hrun⟩ := badHeader_append hbad (received chunks)
      have hrest : (c.data chunk).1.receive chunks = ((c.data chunk).1, []) := by
        cases chunks <;> simp [receive, hdestroyed, hbad]
      have hlen : HEADER_SIZE ≤ (frameCodec.run (c.pending ++ chunk.bytes)).2.length := by
        simpa [badHeader] using (Bool.and_eq_true_iff.mp hbad).1
      have hall := length_run (c.pending ++ chunk.bytes)
      rw [hbad, if_pos rfl] at hpending
      rw [hrest, hrun, hbad', if_pos rfl, hpending]
      exact ⟨rfl, by omega⟩
    | false =>
      rw [hbad] at hdestroyed hpending
      simp only [Bool.false_eq_true, if_false] at hpending
      by_cases hlast : chunks = []
      · subst hlast
        have hstop := frameCodec.run_of_none (frameCodec.dec_run_snd (c.pending ++ chunk.bytes))
        simp [receive, received, hstop, hbad, hpending]
      · obtain ⟨hframes', hpending'⟩ := ih hdestroyed hlast
        rw [hpending] at hframes' hpending'
        exact ⟨by rw [hframes'], hpending'⟩

/-- A connection begins with what was pending. -/
theorem pending_onConnect (c : TcpClient) : c.onConnect.1.pending = c.pending := rfl

theorem pending_onDisconnect (c : TcpClient) : c.onDisconnect.pending = c.pending := by
  unfold onDisconnect
  split_ifs <;> rfl

/-- When nothing is pending, a connection emits the frames of its own bytes. -/
theorem connection_of_nil (h : c.pending = []) (chunks : List Chunk) :
    (c.connection chunks).2 = (reference chunks).1 := by
  by_cases hne : chunks = []
  · subst hne
    rfl
  · have hframes := (receive_eq (c := c.onConnect.1) rfl hne).1
    rwa [pending_onConnect, h, List.nil_append] at hframes

/-- A connection with the right frames leaves nothing pending exactly when nothing was and its bytes
end with a frame. -/
theorem pending_connection_eq_nil (h : (c.connection chunks).2 = (reference chunks).1) :
    (c.connection chunks).1.pending = [] ↔ c.pending = [] ∧ (reference chunks).2 = [] := by
  have hsize : 0 < HEADER_SIZE := by decide
  show (c.onConnect.1.receive chunks).1.onDisconnect.pending = [] ↔ _
  rw [pending_onDisconnect]
  by_cases hne : chunks = []
  · subst hne
    have hnil : (reference []).2 = [] := rfl
    simp [receive, pending_onConnect, hnil]
  · obtain ⟨hframes, hrest⟩ := receive_eq (c := c.onConnect.1) rfl hne
    rw [pending_onConnect] at hframes hrest
    -- The bytes of the connection, and those before it, are accounted for by the same frames.
    have hall := length_run (c.pending ++ received chunks)
    have hown : (received chunks).length = _ + (reference chunks).2.length :=
      length_run (received chunks)
    rw [← hframes, show (c.onConnect.1.receive chunks).2 = _ from h, List.length_append] at hall
    unfold reference at *
    have hlen : (frameCodec.run (c.pending ++ received chunks)).2.length =
        c.pending.length + (frameCodec.run (received chunks)).2.length := by
      omega
    have hzero : ∀ bs : Bytes, bs = [] ↔ bs.length = 0 := fun bs => List.length_eq_zero_iff.symm
    split_ifs at hrest with hbad
    · have hlong : HEADER_SIZE ≤ (frameCodec.run (c.pending ++ received chunks)).2.length := by
        simpa [badHeader] using (Bool.and_eq_true_iff.mp hbad).1
      rw [hzero, hzero c.pending, hzero (frameCodec.run (received chunks)).2]
      omega
    · rw [hrest, hzero, hzero c.pending, hzero (frameCodec.run (received chunks)).2]
      omega

/-- After connections with the right frames nothing is pending exactly when nothing was and the
bytes of each of them end with a frame. -/
theorem pending_after_eq_nil (h : Isolated c conns) :
    (c.after conns).pending = [] ↔
      c.pending = [] ∧ ∀ chunks ∈ conns, (reference chunks).2 = [] := by
  induction conns generalizing c with
  | nil => simp [after]
  | cons chunks conns ih =>
    obtain ⟨hfirst, hrest⟩ := List.cons.inj h
    rw [after, ih hrest, pending_connection_eq_nil hfirst, and_assoc]
    simp

/-- Connections that each end with a frame are isolated when nothing is pending. -/
theorem isolated_of_nil (h : c.pending = [])
    (hconns : ∀ chunks ∈ conns, (reference chunks).2 = []) :
    Isolated c conns := by
  induction conns generalizing c with
  | nil => rfl
  | cons chunks conns ih =>
    have hfirst := connection_of_nil h chunks
    have hnil := (pending_connection_eq_nil hfirst).mpr ⟨h, hconns chunks (by simp)⟩
    have hrest := ih hnil fun chunks' h' => hconns chunks' (by simp [h'])
    exact List.cons_eq_cons.mpr ⟨hfirst, hrest⟩

theorem emitted_append (c : TcpClient) (conns conns' : List (List Chunk)) :
    c.emitted (conns ++ conns') = c.emitted conns ++ (c.after conns).emitted conns' := by
  induction conns generalizing c with
  | nil => rfl
  | cons chunks conns ih => simp [emitted, after, ih]

theorem length_emitted (c : TcpClient) (conns : List (List Chunk)) :
    (c.emitted conns).length = conns.length := by
  induction conns generalizing c with
  | nil => rfl
  | cons chunks conns ih => simp [emitted, ih]

/-- A sequence of connections is isolated when its beginning is and its last is. -/
theorem isolated_concat (c : TcpClient) (conns : List (List Chunk)) (last : List Chunk) :
    Isolated c (conns ++ [last]) ↔
      Isolated c conns ∧ ((c.after conns).connection last).2 = (reference last).1 := by
  unfold Isolated
  rw [emitted_append, List.map_append]
  constructor
  · intro h
    obtain ⟨hconns, hlast⟩ := List.append_inj h (by simp [length_emitted])
    exact ⟨hconns, by simpa [emitted] using hlast⟩
  · rintro ⟨hconns, hlast⟩
    simp [hconns, emitted, hlast]

end TcpClient

/-- A frame of another type is not what is read first. -/
theorem run_ne_of_type_ne {bs : Bytes} {f : Frame} (h : bs.getD 4 0 ≠ f.type) :
    (frameCodec.run bs).1 ≠ [f] := by
  intro hrun
  cases hdec : frameCodec.dec bs with
  | none =>
    rw [frameCodec.run_of_none hdec] at hrun
    cases hrun
  | some p =>
    obtain ⟨f', rest⟩ := p
    rw [frameCodec.run_of_some hdec] at hrun
    obtain ⟨hf, -⟩ := List.cons.inj hrun
    obtain ⟨-, -, -, hp, -⟩ := Frame.decode_eq_some.mp hdec
    exact h (by rw [← hf, hp]; rfl)

/-- After bytes that are pending, some frame is read as something else: one whose type is not the
byte that comes to stand in its place. -/
theorem exists_misread {bs : Bytes} (h : bs ≠ []) :
    ∃ f : Frame, f.payload = [] ∧ (frameCodec.run (bs ++ f.encode)).1 ≠ [f] := by
  -- A type that is neither the byte in its place nor in the magic number.
  obtain ⟨type, htype, hmem⟩ : ∃ type : UInt8, bs.getD 4 0 ≠ type ∧
      type ∉ BigEndian.be 4 MAGIC := by
    by_cases hzero : bs.getD 4 0 = 0
    · exact ⟨1, by rw [hzero]; decide, by decide⟩
    · exact ⟨0, hzero, by decide⟩
  refine ⟨⟨type, 0, []⟩, rfl, run_ne_of_type_ne ?_⟩
  by_cases hlen : 4 < bs.length
  · -- the byte is one of those that were pending
    simpa [List.getD_eq_getElem?_getD, List.getElem?_append_left hlen] using htype
  · -- the byte is one of the magic number
    have hpos : 0 < bs.length := List.length_pos_of_ne_nil h
    have hencode : Frame.encode ⟨type, 0, []⟩ = BigEndian.be 4 MAGIC ++
        ([type] ++ BigEndian.be 4 0 ++ BigEndian.be 8 0) := by
      simp [Frame.encode]
    have hindex : 4 - bs.length < (BigEndian.be 4 MAGIC).length := by
      simp; omega
    have hbyte : (bs ++ Frame.encode ⟨type, 0, []⟩).getD 4 0 =
        (BigEndian.be 4 MAGIC)[4 - bs.length] := by
      rw [hencode, List.getD_eq_getElem?_getD, List.getElem?_append_right (by omega),
        List.getElem?_append_left hindex, List.getElem?_eq_getElem hindex, Option.getD_some]
    rw [hbyte]
    exact fun heq => hmem ((show _ = type from heq) ▸ List.getElem_mem hindex)

/-- Whatever the next connection brings, every connection emits the frames of its own bytes: if and
only if the bytes of each connection before it end with a frame. -/
theorem isolated_iff (readBufSize : ℕ) (memory : ℕ → UInt8) (conns : List (List Chunk)) :
    (∀ last, Isolated (TcpClient.create readBufSize memory) (conns ++ [last])) ↔
      ∀ chunks ∈ conns, (reference chunks).2 = [] := by
  have hnil : (TcpClient.create readBufSize memory).pending = [] := rfl
  constructor
  · intro h
    have hconns : Isolated (TcpClient.create readBufSize memory) conns :=
      ((TcpClient.isolated_concat _ conns []).mp (h [])).1
    by_contra hends
    have hpending : ((TcpClient.create readBufSize memory).after conns).pending ≠ [] := fun heq =>
      hends ((TcpClient.pending_after_eq_nil hconns).mp heq).2
    -- One more frame, and it is not the one that is emitted.
    obtain ⟨f, hpayload, hmisread⟩ := exists_misread hpending
    have hlast := ((TcpClient.isolated_concat _ conns [⟨f.encode, memory⟩]).mp (h _)).2
    have hframes := (TcpClient.receive_eq
      (c := ((TcpClient.create readBufSize memory).after conns).onConnect.1) rfl
      (List.cons_ne_nil (⟨f.encode, memory⟩ : Chunk) [])).1
    have hown : (reference [⟨f.encode, memory⟩]).1 = [f] := by
      have hvalid : ∀ r ∈ [f], frameCodec.Valid r := by simp [frameCodec, hpayload]
      have hrun := frameCodec.run_encodeAll hvalid
      simpa [reference, received, frameCodec, Codec.encodeAll] using congrArg Prod.fst hrun
    refine hmisread ?_
    have hreceived : received [⟨f.encode, memory⟩] = f.encode := by simp [received]
    rw [TcpClient.pending_onConnect, hreceived] at hframes
    exact hframes.symm.trans (hlast.trans hown)
  · intro h last
    have hconns := TcpClient.isolated_of_nil hnil h
    have hpending := (TcpClient.pending_after_eq_nil hconns).mpr ⟨hnil, h⟩
    exact (TcpClient.isolated_concat _ conns last).mpr
      ⟨hconns, TcpClient.connection_of_nil hpending last⟩

/-- A connection that begins with one byte pending emits the frames of that byte and its own. -/
theorem TcpClient.connection_of_single {c : TcpClient} {b : UInt8} (h : c.pending = [])
    (first last : Chunk) (hfirst : first.bytes = [b]) :
    ((c.after [[first]]).connection [last]).2 = (frameCodec.run (b :: last.bytes)).1 := by
  have hnone : Frame.decode [b] = none := Frame.decode_eq_none fun hlen => by
    simp [HEADER_SIZE] at hlen
  have hshort : frameCodec.run [b] = ([], [b]) := frameCodec.run_of_none hnone
  have hpending : (c.after [[first]]).pending = [b] := by
    have hrest := (receive_eq (c := c.onConnect.1) rfl (List.cons_ne_nil first [])).2
    rw [pending_onConnect, h, show [] ++ received [first] = [b] by simp [received, hfirst],
      hshort] at hrest
    exact (pending_onDisconnect _).trans hrest
  have hframes := (receive_eq (c := (c.after [[first]]).onConnect.1) rfl
    (List.cons_ne_nil last [])).1
  rwa [pending_onConnect, hpending, show [b] ++ received [last] = b :: last.bytes by
    simp [received]] at hframes

/-- The first connection breaks off after one byte of a frame, and the next one brings a whole
frame, which is lost: the byte that was pending makes its header a bad one. -/
theorem broken_off_frame_spoils_next :
    ¬Isolated (TcpClient.create READ_BUF_SIZE fun _ => 0) [[⟨[0xDE], fun _ => 0⟩],
      [⟨Frame.encode ⟨0x06, 1, [0, 1, 0x74]⟩, fun _ => 0⟩]] := by
  have hlost : (frameCodec.run (0xDE :: Frame.encode ⟨0x06, 1, [0, 1, 0x74]⟩)).1 ≠
      (frameCodec.run (Frame.encode ⟨0x06, 1, [0, 1, 0x74]⟩)).1 := by
    decide
  intro h
  obtain ⟨-, hlast⟩ := (TcpClient.isolated_concat _ [[⟨[0xDE], fun _ => 0⟩]] _).mp h
  rw [TcpClient.connection_of_single (b := 0xDE) rfl _ _ rfl] at hlast
  exact hlost (by simpa [reference, received] using hlast)

end EventQueue.Gateway
