import EventQueue.Broker.Protocol
import EventQueue.Lib.Transition

/-!
# Sending on one connection

`TcpServer::send_to` for the calls on one connection, from any threads. A call that finds the client
waits for `send_mu`; the call that holds it hands what is left of its frame to `::send`, again and
again, until the frame is through or `::send` fails. Any call that waits may be the next to take the
lock, and `::send` may accept any part of what it is given.

The loop is left by the same way out when `::send` fails, and nothing is kept of it: the next call
on the connection starts at the first byte of its own frame. As long as a socket that has failed
once accepts nothing more, what it accepted is the frames, in the order of their locks, up to some
point (`accepted_in_frames`).
-/

namespace EventQueue.Broker

open Transition (Run exec execChecked run_of_execChecked)

/-- A call of `send_to` that holds `send_mu`. -/
structure SendCall where
  /-- The frame. -/
  frame : Bytes
  /-- The number of its bytes that `::send` accepted. -/
  total_sent : ℕ
deriving DecidableEq, Repr

/-- The count that `::send` is called with: what is left of the frame, cast to an `int`. -/
def SendCall.requested (call : SendCall) : ℤ :=
  Int.bmod ((call.frame.length - call.total_sent : ℕ) : ℤ) (2 ^ 32)

/-- One connection, and the calls of `send_to` on it. -/
structure Connection where
  /-- Whether `clients_` has an entry for the client. -/
  present : Bool
  /-- The frames of the calls that wait for `send_mu`. -/
  waiting : List Bytes
  /-- The call that holds `send_mu`. -/
  sending : Option SendCall
  /-- The bytes that the socket accepted. -/
  accepted : Bytes
  /-- Ghost: whether a call of `::send` on the socket has failed. -/
  failed : Bool
  /-- Ghost: the frames in the order in which their calls took `send_mu`. -/
  frames : List Bytes
deriving DecidableEq, Repr

/-- What happens on a connection. -/
inductive SendAction
  /-- A thread calls `send_to` with a frame. -/
  | sendTo (frame : Bytes)
  /-- `handle_client` erases the client. -/
  | disconnect
  /-- A waiting call takes `send_mu`. -/
  | lock (i : ℕ)
  /-- `::send` returns. -/
  | send (sent : ℤ)
  /-- The loop is through with the frame, and `send_mu` is released. -/
  | unlock
deriving DecidableEq, Repr

namespace Connection

/-- A connection as `accept_loop` makes it. -/
def init : Connection := ⟨true, [], none, [], false, []⟩

/-- What one action does. `::send` accepts from one byte up to the count it is called with, or fails
with a result that is not positive. -/
def step (c : Connection) : SendAction → Option Connection
  | .sendTo frame =>
    if c.present then some { c with waiting := c.waiting ++ [frame] } else some c
  | .disconnect => some { c with present := false }
  | .lock i =>
    match c.sending, c.waiting[i]? with
    | none, some frame =>
      some { c with
        waiting := c.waiting.eraseIdx i
        sending := some ⟨frame, 0⟩
        frames := c.frames ++ [frame] }
    | _, _ => none
  | .send sent =>
    match c.sending with
    | none => none
    | some call =>
      if call.total_sent < call.frame.length then
        -- The `break`: the lock is released with the frame unfinished.
        if sent ≤ 0 then some { c with sending := none, failed := true }
        else if sent ≤ call.requested then
          some { c with
            sending := some { call with total_sent := call.total_sent + sent.toNat }
            accepted := c.accepted ++ (call.frame.drop call.total_sent).take sent.toNat }
        else none
      else none
  | .unlock =>
    match c.sending with
    | none => none
    | some call =>
      if call.total_sent < call.frame.length then none else some { c with sending := none }

variable {c d : Connection} {a : SendAction} {as : List SendAction}

/-- A socket on which `::send` has failed accepts nothing more. -/
def StaysBroken (c : Connection) : SendAction → Prop
  | .send sent => 0 < sent → c.failed = false
  | _ => True

instance (c : Connection) (a : SendAction) : Decidable (StaysBroken c a) :=
  match a with
  | .send sent => inferInstanceAs (Decidable (0 < sent → c.failed = false))
  | .sendTo _ | .disconnect | .lock _ | .unlock => isTrue trivial

/-- The bytes accepted are the frames in the order of their locks, up to some point. -/
structure Framed (c : Connection) : Prop where
  /-- Between two calls on a socket that has not failed, every frame is through. -/
  idle : c.failed = false → c.sending = none → c.accepted = c.frames.flatten
  /-- During a call on such a socket, every frame but the last is through, and the last as far as
  the call has got. -/
  busy : c.failed = false → ∀ call, c.sending = some call →
    ∃ through, c.frames = through ++ [call.frame] ∧
      c.accepted = through.flatten ++ call.frame.take call.total_sent
  /-- In any case there is nothing after a frame that is not through. -/
  framed : c.accepted <+: c.frames.flatten

/-- The connection starts with nothing accepted. -/
theorem framed_init : Framed init := ⟨fun _ _ => rfl, by simp [init], by simp [init]⟩

/-- Every step keeps the bytes in frames, if a socket that has failed accepts nothing more. -/
theorem Framed.step (hc : Framed c) (hok : StaysBroken c a) (h : c.step a = some d) : Framed d := by
  cases a with
  | sendTo frame =>
    simp only [Connection.step] at h
    split_ifs at h <;> obtain rfl := Option.some.inj h
    · exact ⟨hc.idle, hc.busy, hc.framed⟩
    · exact hc
  | disconnect =>
    obtain rfl := Option.some.inj h
    exact ⟨hc.idle, hc.busy, hc.framed⟩
  | lock i =>
    simp only [Connection.step] at h
    split at h
    · rename_i frame hfree hframe
      obtain rfl := Option.some.inj h
      refine ⟨by simp, ?_, ?_⟩
      · rintro hfine call hcall
        obtain rfl := Option.some.inj hcall
        -- The lock was free: all frames before this one are through.
        exact ⟨c.frames, rfl, by simpa using hc.idle hfine hfree⟩
      · simpa using hc.framed.trans (List.prefix_append _ _)
    · cases h
  | send sent =>
    simp only [Connection.step] at h
    split at h
    · cases h
    · rename_i call hcall
      split_ifs at h with hmore hfail hle
      · -- `::send` has failed, and the call leaves its frame as it is.
        obtain rfl := Option.some.inj h
        exact ⟨by simp, by simp, hc.framed⟩
      · obtain rfl := Option.some.inj h
        -- The socket accepted bytes, so that it had not failed before.
        have hfine : c.failed = false := hok (by omega)
        obtain ⟨through, hframes, haccepted⟩ := hc.busy hfine call hcall
        have hbytes : c.accepted ++ (call.frame.drop call.total_sent).take sent.toNat =
            through.flatten ++ call.frame.take (call.total_sent + sent.toNat) := by
          rw [haccepted, List.append_assoc, ← List.take_add]
        refine ⟨by simp, ?_, ?_⟩
        · rintro - call' hcall'
          obtain rfl := Option.some.inj hcall'
          exact ⟨through, hframes, hbytes⟩
        · show c.accepted ++ _ <+: c.frames.flatten
          rw [hbytes, hframes, List.flatten_append, List.flatten_singleton]
          exact (List.prefix_append_right_inj _).mpr (List.take_prefix _ _)
  | unlock =>
    simp only [Connection.step] at h
    split at h
    · cases h
    · rename_i call hcall
      split_ifs at h with hmore
      obtain rfl := Option.some.inj h
      -- The loop ends when all of the frame was accepted.
      refine ⟨fun hfine _ => ?_, by simp, hc.framed⟩
      obtain ⟨through, hframes, haccepted⟩ := hc.busy hfine call hcall
      show c.accepted = c.frames.flatten
      rw [haccepted, hframes, List.take_of_length_le (by omega)]
      simp

/-- In every run on a connection in which a socket that has failed accepts nothing more, what the
socket accepted is at all times a prefix of the frames in the order in which their calls took
`send_mu`. -/
theorem accepted_in_frames (hrun : Run step StaysBroken init as c) :
    c.accepted <+: c.frames.flatten := by
  have hframed : Framed c := hrun.invariant (fun _ _ _ hc hok h => hc.step hok h) framed_init
  exact hframed.framed

/-- Two calls on one connection: each waits for the lock, the second to come is the first to get it,
and the socket fails in the middle of the last frame. -/
def twoEvents : List SendAction :=
  [.sendTo (encodeFrame .eventData 2 (ascii "t") (ascii "b")),
    .sendTo (encodeFrame .eventData 1 (ascii "t") (ascii "a")),
    .lock 1, .send 8, .send 13, .unlock, .lock 0, .send 9, .send (-1)]

/-- One frame and nine bytes of the other are accepted. -/
theorem accepted_in_frames_twoEvents :
    ∃ c, execChecked step StaysBroken init twoEvents = some c ∧ c.accepted.length = 30 ∧
      c.accepted <+: c.frames.flatten := by
  have hlength : (execChecked step StaysBroken init twoEvents).any
      (fun c => c.accepted.length = 30) := by decide
  obtain ⟨c, hc, hlength⟩ := (Option.any_eq_true _ _).mp hlength
  exact ⟨c, hc, of_decide_eq_true hlength, accepted_in_frames (run_of_execChecked hc)⟩

/-- `::send` fails in the middle of a frame, and works again in the next call. -/
def brokenOff : List SendAction :=
  [.sendTo (encodeFrame .eventData 1 (ascii "t") (ascii "a")),
    .sendTo (encodeFrame .eventData 2 (ascii "t") (ascii "b")),
    .lock 0, .send 8, .send (-1), .lock 0, .send 21, .unlock]

/-- The second frame goes out behind the part of the first that was accepted. -/
theorem torn_frame_followed :
    ∃ c, exec step init brokenOff = some c ∧ ¬ c.accepted <+: c.frames.flatten := by
  have htorn : (exec step init brokenOff).any
      (fun c => ¬ c.accepted <+: c.frames.flatten) := by decide
  obtain ⟨c, hc, htorn⟩ := (Option.any_eq_true _ _).mp htorn
  exact ⟨c, hc, of_decide_eq_true htorn⟩

end Connection

end EventQueue.Broker
