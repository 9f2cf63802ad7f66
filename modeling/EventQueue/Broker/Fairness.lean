import EventQueue.Broker.Fanout
import EventQueue.Lib.RoundRobin

/-!
# Fairness of the round robin

A competing group gives the messages that match its pattern to its members in turn. While nobody
joins or leaves the group, a call that is not a matching `route` leaves its state alone, joins and
leaves of other groups included, and a matching one gives the message to the member at `rr_idx` and
moves `rr_idx` on by one (`group_call`). So the members that a sequence of calls selects are turns
of a round robin in a row (`picks_eq`), from whatever index earlier memberships have left, as long
as the index does not wrap around.
-/

namespace EventQueue.Broker

open RoundRobin (turns turn_eq_some)

/-- Whether a call routes a message that matches a pattern. -/
def RouterCall.routes (pattern : Bytes) : RouterCall → Bool
  | .route msg => TopicRouter.topicMatches pattern msg.topic
  | _ => false

namespace TopicRouter

variable {r : TopicRouter} {pattern g : Bytes} {state : GroupState} {calls : List RouterCall}

/-- What each call that routes a message that matches the pattern gives to a group of it. -/
def picks (pattern g : Bytes) : TopicRouter → List RouterCall → List (List ClientId)
  | _, [] => []
  | r, .route msg :: calls =>
    if topicMatches pattern msg.topic then
      given (r.route msg).1 pattern g :: picks pattern g (r.call (.route msg)) calls
    else picks pattern g (r.call (.route msg)) calls
  | r, x :: calls => picks pattern g (r.call x) calls

/-- A call keeps the members of a group, as a set. -/
def Stays (pattern g : Bytes) (r r' : TopicRouter) : Prop :=
  ∀ c, c ∈ r'.members pattern g ↔ c ∈ r.members pattern g

/-- The group after a call that does not route a matching message: as it was, when its members
stay. -/
theorem group_call_of_not_routes (hr : r.Tidy) (hstate : r.group pattern g = some state)
    {x : RouterCall} (hx : x.routes pattern = false) (hstays : Stays pattern g r (r.call x)) :
    (r.call x).group pattern g = some state := by
  cases x with
  | subscribe topic group c =>
    have hgroup := group_subscribe r topic group c pattern g
    rw [call, hgroup]
    split_ifs with hkey
    · -- A client that joins the group again was a member already.
      obtain ⟨rfl, rfl⟩ := hkey
      have hmem : c ∈ state.members := by
        have hjoined : c ∈ (r.subscribe pattern group c).members pattern (groupKey group c) := by
          rw [members_subscribe]
          split_ifs with hnew
          · simp
          · by_contra hmem
            exact hnew ⟨rfl, rfl, hmem⟩
        have hold := (hstays c).mp hjoined
        rwa [members_eq, hstate] at hold
      rw [hstate, Option.getD_some, GroupState.join, dif_pos hmem]
    · exact hstate
  | unsubscribe c =>
    -- A client that leaves all groups was no member of this one.
    have hnot : c ∉ r.members pattern g := by
      rw [← hstays c, call, members_unsubscribe]
      simp
    rw [call, group_unsubscribe_of_not_mem hr hnot, hstate]
  | route msg =>
    rw [call, route, group_advance, hstate, Option.map_some]
    rw [RouterCall.routes] at hx
    rw [hx]
    rfl

/-- A call keeps the router tidy. -/
theorem Tidy.call (hr : r.Tidy) (x : RouterCall) : (r.call x).Tidy := by
  cases x with
  | subscribe topic group c => exact hr.subscribe topic group c
  | unsubscribe c => exact tidy_unsubscribe r c
  | route msg => exact hr.advance msg.topic

/-- The members that a sequence of calls selects in a competing group have turns in a row, from the
group's index on. -/
theorem picks_eq {i : ℕ} (hr : r.Tidy) (hstate : r.group pattern g = some state)
    (hg : isUnique g = false) (hidx : state.rr_idx = UInt64.ofNat i)
    (hstays : ∀ before, before <+: calls → Stays pattern g r (before.foldl call r))
    (hwrap : i + calls.countP (RouterCall.routes pattern) ≤ 2 ^ 64) :
    picks pattern g r calls =
      (turns state.members i (calls.countP (RouterCall.routes pattern))).map ([·]) := by
  -- The induction is on the calls, from any router and index: each matching call moves both on.
  induction calls generalizing r state i with
  | nil => rfl
  | cons x calls ih =>
    have hone : Stays pattern g r (r.call x) := hstays [x] ⟨calls, rfl⟩
    have hrest : ∀ before, before <+: calls →
        Stays pattern g (r.call x) (before.foldl call (r.call x)) := by
      intro before hbefore c
      rw [hone c]
      exact hstays (x :: before) ((List.prefix_cons_inj x).mpr hbefore) c
    cases hx : x.routes pattern with
    | false =>
      -- The call selects nobody in the group, and leaves it as it is.
      have hcount : (x :: calls).countP (RouterCall.routes pattern) =
          calls.countP (RouterCall.routes pattern) :=
        List.countP_cons_of_neg (by simp [hx])
      have hskip : picks pattern g r (x :: calls) = picks pattern g (r.call x) calls := by
        cases x with
        | subscribe | unsubscribe => rfl
        | route msg =>
          rw [RouterCall.routes] at hx
          rw [picks, hx]
          rfl
      rw [hcount] at hwrap ⊢
      rw [hskip]
      exact ih (hr.call x) (group_call_of_not_routes hr hstate hx hone) hidx hrest hwrap
    | true =>
      cases x with
      | subscribe | unsubscribe => cases hx
      | route msg =>
        have hmatch : topicMatches pattern msg.topic = true := hx
        have hpos : 0 < state.members.length := List.length_pos_iff.mpr (hr.members_ne_nil hstate)
        rw [List.countP_cons_of_pos hx] at hwrap ⊢
        have hi : state.rr_idx.toNat = i := by
          rw [hidx]
          exact UInt64.toNat_ofNat_of_lt (by norm_num; omega)
        -- The group after the call.
        have hnext : (r.call (.route msg)).group pattern g =
            some { state with rr_idx := state.rr_idx + 1 } := by
          rw [call, route, group_advance, hstate, Option.map_some, hmatch]
          simp [GroupState.advance, hg, List.isEmpty_eq_false_iff.mpr (hr.members_ne_nil hstate)]
        -- What it gives.
        have hgiven : given (r.route msg).1 pattern g =
            [state.members.get ⟨i % state.members.length, Nat.mod_lt i hpos⟩] := by
          rw [route, given_targets, hmatch, hstate]
          simp [GroupState.selected, hg, hi, List.getElem?_eq_getElem (Nat.mod_lt _ hpos)]
        have hidx' : state.rr_idx + 1 = UInt64.ofNat (i + 1) := by rw [hidx, UInt64.ofNat_add]; rfl
        have hrec := ih (hr.call _) hnext (i := i + 1) hidx' hrest (by omega)
        rw [picks, if_pos hmatch, hgiven, hrec, turns, turn_eq_some hpos, Option.toList_some,
          List.singleton_append, List.map_cons]

/-- From every state that a history leads to: `k` rounds of matching `route` calls on a competing
group with `n` members, whatever other calls come between them, select each member `k` times, as
long as nobody joins or leaves the group and its index does not pass `2 ^ 64`; and any `n` of them
in a row select `n` distinct members. -/
theorem round_robin_fair {before : List RouterCall} {k : ℕ}
    (hstate : (afterCalls before).group pattern g = some state) (hg : isUnique g = false)
    (hstays : ∀ some_calls, some_calls <+: calls →
      Stays pattern g (afterCalls before) (afterCalls (before ++ some_calls)))
    (hcount : calls.countP (RouterCall.routes pattern) = k * state.members.length)
    (hwrap : state.rr_idx.toNat + k * state.members.length ≤ 2 ^ 64) :
    ∃ selected : List ClientId,
      picks pattern g (afterCalls before) calls = selected.map ([·]) ∧
      selected.length = k * state.members.length ∧
      (∀ c ∈ state.members, selected.count c = k) ∧
      ∀ i, i + state.members.length ≤ selected.length →
        ((selected.drop i).take state.members.length).Nodup ∧
          ∀ c ∈ (selected.drop i).take state.members.length, c ∈ state.members := by
  have hr := tidy_afterCalls before
  have hpos : 0 < state.members.length := List.length_pos_iff.mpr (hr.members_ne_nil hstate)
  -- The calls select turns in a row, from the index that the history has left.
  have hpicks := picks_eq hr hstate hg (UInt64.ofNat_toNat).symm
    (fun some_calls h => by simpa [afterCalls] using hstays some_calls h) (hcount ▸ hwrap)
  rw [hcount] at hpicks
  refine ⟨_, hpicks, RoundRobin.length_turns hpos _ _, fun c hc => ?_, fun i hi => ?_⟩
  · rw [RoundRobin.count_turns_mul, List.count_eq_one_of_mem state.nodup hc, Nat.mul_one]
  · rw [RoundRobin.length_turns hpos] at hi
    rw [RoundRobin.take_drop_turns hpos hi]
    exact ⟨(List.rotate_perm _ _).nodup_iff.mpr state.nodup, fun c => List.mem_rotate.mp⟩

/-- Two clients join a group, a message is routed, and a third client joins. -/
def joinedLate : List RouterCall :=
  [.subscribe [0x74] [0x67] 1, .subscribe [0x74] [0x67] 2, .route ⟨1, [0x74], [], 0, 0⟩,
    .subscribe [0x74] [0x67] 3]

/-- Three messages for the group, with calls in between that do not concern it. -/
def threeMessages : List RouterCall :=
  [.route ⟨2, [0x74], [], 0, 0⟩, .subscribe [0x74] [0x68] 1, .route ⟨3, [0x75], [], 0, 0⟩,
    .route ⟨4, [0x74], [], 0, 0⟩, .unsubscribe 4, .route ⟨5, [0x74], [], 0, 0⟩]

/-- Each of the three clients gets one of the three messages. -/
theorem round_robin_fair_threeMessages :
    ∃ selected : List ClientId,
      picks [0x74] [0x67] (afterCalls joinedLate) threeMessages = selected.map ([·]) ∧
        ∀ c ∈ [1, 2, 3], selected.count c = 1 := by
  obtain ⟨state, hstate, hend⟩ := (Option.any_eq_true _ _).mp
    (show ((afterCalls joinedLate).group [0x74] [0x67]).any (fun state =>
      state.members = [1, 2, 3] ∧ state.rr_idx = 1) = true by decide)
  obtain ⟨hmembers, hidx⟩ := of_decide_eq_true hend
  have hstays : ∀ some_calls, some_calls <+: threeMessages → Stays [0x74] [0x67]
      (afterCalls joinedLate) (afterCalls (joinedLate ++ some_calls)) := by
    intro some_calls h c
    -- The prefixes are finitely many, and none changes the members.
    have hsame : ∀ some_calls ∈ threeMessages.inits,
        (afterCalls (joinedLate ++ some_calls)).members [0x74] [0x67] =
          (afterCalls joinedLate).members [0x74] [0x67] := by decide
    rw [hsame some_calls ((List.mem_inits _ _).mpr h)]
  have hcount : threeMessages.countP (RouterCall.routes [0x74]) = 1 * state.members.length := by
    rw [hmembers]
    decide
  have hwrap : state.rr_idx.toNat + 1 * state.members.length ≤ 2 ^ 64 := by
    rw [hmembers, hidx]
    decide
  obtain ⟨selected, hpicks, -, hfair, -⟩ :=
    round_robin_fair hstate (by decide) hstays hcount hwrap
  exact ⟨selected, hpicks, hmembers ▸ hfair⟩

end TopicRouter

end EventQueue.Broker
