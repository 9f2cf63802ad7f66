import EventQueue.Lib.Transition
import Mathlib.Tactic.Linarith

/-!
# Reconnecting with exponential backoff

A client of a server that may be down is at any time in one of four phases: an attempt to connect is
due, one is under way, there is a connection, or the client was stopped and has no connection any
more. A connection that closes, or an attempt that fails, makes the next attempt due after a delay,
which doubles with every failure up to a bound and goes back to its least value when an attempt
succeeds. `State` is that client and nothing else; a real one has sockets, timers, and a delay that
it updates, and follows it by a simulation.
-/

namespace Reconnector

open Transition (Run exec run_of_exec)

/-- The delay after some failures in a row. -/
def backoff (lo hi failures : ℕ) : ℕ := min (lo * 2 ^ failures) hi

section Backoff

variable {lo hi : ℕ}

theorem backoff_zero (h : lo ≤ hi) : backoff lo hi 0 = lo := by
  simp [backoff, h]

/-- A client doubles the delay that it had. -/
theorem backoff_succ (lo hi failures : ℕ) :
    min (backoff lo hi failures * 2) hi = backoff lo hi (failures + 1) := by
  unfold backoff
  rw [pow_succ]
  generalize 2 ^ failures = d
  rw [← Nat.mul_assoc]
  omega

end Backoff

/-- Where a client is. -/
inductive Phase
  /-- An attempt is due after some time. -/
  | due (wait : ℕ)
  /-- An attempt is under way. -/
  | trying
  /-- There is a connection. -/
  | up
  /-- There is none, and there will be none. -/
  | down
deriving DecidableEq, Repr

/-- A client. -/
structure State where
  /-- Where it is. -/
  phase : Phase
  /-- How often it has failed since it was last connected. -/
  failures : ℕ
  /-- It was stopped. -/
  stopping : Bool
deriving DecidableEq, Repr

/-- What can happen to a client. -/
inductive Event
  /-- An attempt is made, unless the client was stopped. -/
  | attempt
  /-- It succeeds. -/
  | opened
  /-- It fails, or the connection closes. -/
  | closed
  /-- The client is stopped. -/
  | stop
deriving DecidableEq, Repr

/-- A new client, which is about to make its first attempt. -/
def init : State := ⟨.due 0, 0, false⟩

/-- The client after an event. -/
def step (lo hi : ℕ) (s : State) : Event → Option State
  | .attempt =>
    match s.phase with
    | .due _ => some { s with phase := if s.stopping then .down else .trying }
    | _ => none
  | .opened =>
    if s.phase = .trying ∧ s.stopping = false then some { s with phase := .up, failures := 0 }
    else none
  | .closed =>
    if s.phase = .trying ∨ s.phase = .up then
      if s.stopping then some { s with phase := .down }
      else some { s with phase := .due (backoff lo hi s.failures), failures := s.failures + 1 }
    else none
  | .stop => some { s with stopping := true }

section Step

variable {lo hi : ℕ} {s t : State} {e : Event}

/-- One event is an execution. -/
theorem exec_singleton (h : step lo hi s e = some t) : exec (step lo hi) s [e] = some t := by
  simp [exec, h]

/-- A client that was stopped makes no attempt any more. -/
theorem step_attempt_of_stopping {wait : ℕ} (h : s.phase = .due wait) (hs : s.stopping = true) :
    step lo hi s .attempt = some { s with phase := .down } := by
  simp [step, h, hs]

/-- An attempt that is due is made. -/
theorem step_attempt_of_running {wait : ℕ} (h : s.phase = .due wait) (hs : s.stopping = false) :
    step lo hi s .attempt = some { s with phase := .trying } := by
  simp [step, h, hs]

/-- An attempt succeeds. -/
theorem step_opened (h : s.phase = .trying) (hs : s.stopping = false) :
    step lo hi s .opened = some { s with phase := .up, failures := 0 } := if_pos ⟨h, hs⟩

/-- A client that was stopped lets the connection go. -/
theorem step_closed_of_stopping (h : s.phase = .trying ∨ s.phase = .up) (hs : s.stopping = true) :
    step lo hi s .closed = some { s with phase := .down } := by
  simp [step, h, hs]

/-- Any other one is about to try again. -/
theorem step_closed_of_running (h : s.phase = .trying ∨ s.phase = .up) (hs : s.stopping = false) :
    step lo hi s .closed =
      some { s with phase := .due (backoff lo hi s.failures), failures := s.failures + 1 } := by
  simp [step, h, hs]

end Step

/-- What holds of a client in every run. -/
structure Sound (lo hi : ℕ) (s : State) : Prop where
  /-- It gives up only when it was stopped. -/
  down : s.phase = .down → s.stopping = true
  /-- An attempt is due at once, at first, or as long after a failure as there were failures
  before. -/
  wait : ∀ w, s.phase = .due w → w = 0 ∨ ∃ n, s.failures = n + 1 ∧ w = backoff lo hi n

variable {lo hi : ℕ} {s t : State} {es : List Event}

theorem sound_init : Sound lo hi init where
  down h := by cases h
  wait w h := by
    obtain rfl : 0 = w := Phase.due.inj h
    exact .inl rfl

theorem Sound.step {e : Event} (hs : Sound lo hi s) (h : step lo hi s e = some t) :
    Sound lo hi t := by
  cases e with
  | attempt =>
    simp only [Reconnector.step] at h
    split at h
    · obtain rfl := Option.some.inj h
      cases hstop : s.stopping with
      | false => constructor <;> simp
      | true => constructor <;> simp
    · cases h
  | opened =>
    simp only [Reconnector.step] at h
    split_ifs at h
    obtain rfl := Option.some.inj h
    constructor <;> simp
  | closed =>
    simp only [Reconnector.step] at h
    split_ifs at h with hphase hstop <;> obtain rfl := Option.some.inj h
    · exact ⟨fun _ => hstop, fun w hw => by cases hw⟩
    · refine ⟨fun hdown => absurd hdown (by simp), fun w hw => .inr ⟨s.failures, rfl, ?_⟩⟩
      exact (Phase.due.inj hw).symm
  | stop =>
    obtain rfl := Option.some.inj h
    exact ⟨fun _ => rfl, hs.wait⟩

/-- Every run. -/
theorem sound_of_exec (h : exec (step lo hi) init es = some t) : Sound lo hi t :=
  (run_of_exec h).invariant (fun _ _ _ hs _ h => hs.step h) sound_init

end Reconnector
