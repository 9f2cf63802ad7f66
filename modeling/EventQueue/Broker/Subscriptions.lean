import EventQueue.Broker.TopicRouter
import Mathlib.Data.List.Induction

/-!
# The router and its history

A history is a list of calls of `subscribe`, `unsubscribe`, and `route` on a router that starts
empty. What the router stores is a function of it: a client is a member of a group when it has
subscribed under the group's name and has not unsubscribed since (`Subscribed`), and the members
stand in the order in which they joined (`joinedAt`). `Tidy` is the invariant of the nested maps:
neither an empty group nor a pattern without groups is stored.

`group_subscribe`, `group_unsubscribe`, and `group_advance` say what each call does to one group of
one pattern; everything else is read off them.
-/

namespace EventQueue.Broker

/-- A call on the router. -/
inductive RouterCall
  /-- `subscribe(topic, group, client_id)`. -/
  | subscribe (topic group : Bytes) (client_id : ClientId)
  /-- `unsubscribe(client_id)`. -/
  | unsubscribe (client_id : ClientId)
  /-- `route(msg)`. -/
  | route (msg : Message)
deriving DecidableEq

namespace TopicRouter

/-- The router after a call. -/
def call (r : TopicRouter) : RouterCall → TopicRouter
  | .subscribe topic group client_id => r.subscribe topic group client_id
  | .unsubscribe client_id => r.unsubscribe client_id
  | .route msg => (r.route msg).2

/-- The router after a history. -/
def afterCalls (calls : List RouterCall) : TopicRouter := calls.foldl call empty

/-- A client has subscribed to a topic under the name `g`, and has not unsubscribed since. -/
def Subscribed (calls : List RouterCall) (topic g : Bytes) (c : ClientId) : Prop :=
  ∃ before group after, calls = before ++ RouterCall.subscribe topic group c :: after ∧
    groupKey group c = g ∧ RouterCall.unsubscribe c ∉ after

/-- The number of the call by which a client joined a group, if it has not unsubscribed since. -/
def joinedAt (topic g : Bytes) (c : ClientId) (calls : List RouterCall) : Option ℕ :=
  calls.zipIdx.foldl (fun joined x =>
    match x.1 with
    | .subscribe topic' group c' =>
      if topic' = topic ∧ c' = c ∧ groupKey group c = g then joined.or (some x.2) else joined
    | .unsubscribe c' => if c' = c then none else joined
    | .route _ => joined) none

/-- A group of a pattern. -/
def group (r : TopicRouter) (pattern g : Bytes) : Option GroupState := (r.groups pattern).lookup g

/-- Neither an empty group nor a pattern without groups is stored. -/
def Tidy (r : TopicRouter) : Prop :=
  ∀ pattern groups, r.subscriptions.lookup pattern = some groups → groups.entries ≠ [] ∧
    ∀ g state, groups.lookup g = some state → state.members ≠ []

variable {r : TopicRouter} {topic pattern g : Bytes} {c : ClientId} {calls : List RouterCall}

/-! ## What a call does to a group -/

theorem members_eq (r : TopicRouter) (pattern g : Bytes) :
    r.members pattern g = ((r.group pattern g).map GroupState.members).getD [] := rfl

/-- A client stands once in a group. -/
theorem nodup_members (r : TopicRouter) (pattern g : Bytes) : (r.members pattern g).Nodup := by
  rw [members_eq]
  cases r.group pattern g with
  | none => exact List.nodup_nil
  | some state => exact state.nodup

/-- The members of a group after a client has joined. -/
theorem members_join (state : GroupState) (c : ClientId) :
    (GroupState.join state c).members =
      if c ∈ state.members then state.members else state.members ++ [c] := by
  unfold GroupState.join
  split_ifs <;> rfl

/-- `subscribe` changes the group that it names. -/
theorem group_subscribe (r : TopicRouter) (topic group : Bytes) (c : ClientId) (pattern g : Bytes) :
    (r.subscribe topic group c).group pattern g =
      if pattern = topic ∧ g = groupKey group c then
        some (GroupState.join ((r.group topic (groupKey group c)).getD ⟨[], 0, List.nodup_nil⟩) c)
      else r.group pattern g := by
  unfold TopicRouter.group TopicRouter.groups subscribe
  by_cases hp : pattern = topic
  · subst hp
    simp only [AList.lookup_insert, Option.getD_some, true_and]
    split_ifs with hg
    · rw [hg, AList.lookup_insert]
      rfl
    · rw [AList.lookup_insert_ne hg]
      rfl
  · rw [if_neg fun h => hp h.1, AList.lookup_insert_ne hp]

/-- `unsubscribe` takes a client out of a group, and the group away with its last member. -/
theorem group_unsubscribe (r : TopicRouter) (c : ClientId) (pattern g : Bytes) :
    (r.unsubscribe c).group pattern g = (r.group pattern g).bind fun state =>
      if (state.members.filter (· ≠ c)).isEmpty then none
      else some ⟨state.members.filter (· ≠ c), state.rr_idx, state.nodup.filter _⟩ := by
  unfold TopicRouter.group TopicRouter.groups unsubscribe
  rw [AList.lookup_filterMapVal]
  cases hp : r.subscriptions.lookup pattern with
  | none => rfl
  | some groups =>
    simp only [Option.bind_some, Option.getD_some]
    have hleave := AList.lookup_filterMapVal (fun (_ : Bytes) (g : GroupState) =>
      let members := g.members.filter (· ≠ c)
      if members.isEmpty then none else some (⟨members, g.rr_idx, g.nodup.filter _⟩ : GroupState))
      groups g
    split_ifs with hempty
    · -- no group is left, so this one is not
      have hnil : (leaveGroups groups c).entries = [] := List.isEmpty_iff.mp hempty
      have hnone : (leaveGroups groups c).lookup g = none := by
        rw [AList.lookup, hnil]
        rfl
      exact hnone.symm.trans hleave
    · exact hleave

/-- `route` advances the round robin of a group, and leaves its members. -/
theorem group_advance (r : TopicRouter) (topic pattern g : Bytes) :
    (r.advance topic).group pattern g = (r.group pattern g).map fun state =>
      if topicMatches pattern topic then GroupState.advance g state else state := by
  unfold TopicRouter.group TopicRouter.groups advance
  rw [AList.lookup_filterMapVal]
  cases hp : r.subscriptions.lookup pattern with
  | none => rfl
  | some groups =>
    simp only [Option.bind_some, Option.getD_some]
    split_ifs with hmatch
    · rw [AList.lookup_filterMapVal]
      cases groups.lookup g <;> rfl
    · simp

theorem members_advance (state : GroupState) (g : Bytes) :
    (GroupState.advance g state).members = state.members := by
  unfold GroupState.advance
  split_ifs <;> rfl

/-! ## Members -/

/-- The members of a group after `subscribe`. -/
theorem members_subscribe (r : TopicRouter) (topic group : Bytes) (c : ClientId)
    (pattern g : Bytes) :
    (r.subscribe topic group c).members pattern g =
      if pattern = topic ∧ g = groupKey group c ∧ c ∉ r.members pattern g then
        r.members pattern g ++ [c]
      else r.members pattern g := by
  rw [members_eq, members_eq, group_subscribe]
  by_cases h : pattern = topic ∧ g = groupKey group c
  · obtain ⟨rfl, rfl⟩ := h
    rw [if_pos ⟨rfl, rfl⟩, Option.map_some, Option.getD_some, members_join]
    cases r.group pattern (groupKey group c) <;> simp [ite_not]
  · rw [if_neg h, if_neg fun h' => h ⟨h'.1, h'.2.1⟩]

/-- The members of a group after `unsubscribe`. -/
theorem members_unsubscribe (r : TopicRouter) (c : ClientId) (pattern g : Bytes) :
    (r.unsubscribe c).members pattern g = (r.members pattern g).filter (· ≠ c) := by
  rw [members_eq, members_eq, group_unsubscribe]
  cases r.group pattern g with
  | none => rfl
  | some state =>
    simp only [Option.bind_some, Option.map_some, Option.getD_some]
    split_ifs with hempty
    · simpa using (List.isEmpty_iff.mp hempty).symm
    · rfl

/-- The members of a group after `route`. -/
theorem members_route (r : TopicRouter) (msg : Message) (pattern g : Bytes) :
    (r.route msg).2.members pattern g = r.members pattern g := by
  show (r.advance msg.topic).members pattern g = _
  rw [members_eq, members_eq, group_advance]
  cases r.group pattern g with
  | none => rfl
  | some state =>
    simp only [Option.map_some, Option.getD_some]
    split_ifs
    · exact members_advance state g
    · rfl

/-! ## Histories -/

theorem afterCalls_concat (calls : List RouterCall) (x : RouterCall) :
    afterCalls (calls ++ [x]) = (afterCalls calls).call x := by
  simp [afterCalls]

/-- Whether a call subscribes a client to a topic under the name `g`. -/
def Joins (topic g : Bytes) (c : ClientId) (x : RouterCall) : Prop :=
  ∃ group, x = .subscribe topic group c ∧ groupKey group c = g

/-- One more call in the history. -/
theorem subscribed_concat (x : RouterCall) :
    Subscribed (calls ++ [x]) topic g c ↔
      Joins topic g c x ∨ Subscribed calls topic g c ∧ x ≠ .unsubscribe c := by
  constructor
  · rintro ⟨before, group, after, heq, hkey, hnot⟩
    cases after using List.reverseRecOn with
    | nil =>
      obtain ⟨-, hx⟩ := List.append_inj' heq rfl
      exact .inl ⟨group, List.singleton_inj.mp hx, hkey⟩
    | append_singleton after last =>
      have heq' : calls ++ [x] =
          (before ++ RouterCall.subscribe topic group c :: after) ++ [last] := by
        rw [heq]
        simp
      obtain ⟨hcalls, hx⟩ := List.append_inj' heq' rfl
      obtain rfl := List.singleton_inj.mp hx
      rw [List.mem_append, not_or, List.mem_singleton] at hnot
      exact .inr ⟨⟨before, group, after, hcalls, hkey, hnot.1⟩, Ne.symm hnot.2⟩
  · rintro (⟨group, rfl, hkey⟩ | ⟨⟨before, group, after, rfl, hkey, hnot⟩, hx⟩)
    · exact ⟨calls, group, [], rfl, hkey, by simp⟩
    · refine ⟨before, group, after ++ [x], by simp, hkey, ?_⟩
      rw [List.mem_append, not_or, List.mem_singleton]
      exact ⟨hnot, Ne.symm hx⟩

/-- A client is a member of a group exactly when it has subscribed under the group's name and has
not unsubscribed since. -/
theorem mem_members_iff : c ∈ (afterCalls calls).members topic g ↔ Subscribed calls topic g c := by
  -- The induction is on the history, from its end: what the last call adds or takes away.
  induction calls using List.reverseRecOn with
  | nil =>
    have hnot : ¬ Subscribed [] topic g c := by
      rintro ⟨before, group, after, heq, -⟩
      simp at heq
    simp only [hnot, iff_false]
    exact List.not_mem_nil
  | append_singleton calls x ih =>
    rw [afterCalls_concat, subscribed_concat, ← ih]
    cases x with
    | subscribe topic' group c' =>
      simp only [call, members_subscribe, Joins, RouterCall.subscribe.injEq, ne_eq, reduceCtorEq,
        not_false_eq_true, and_true]
      constructor
      · intro h
        split_ifs at h with hnew
        · obtain h | h := List.mem_append.mp h
          · exact .inr h
          · obtain rfl := List.mem_singleton.mp h
            exact .inl ⟨group, ⟨hnew.1.symm, rfl, rfl⟩, hnew.2.1.symm⟩
        · exact .inr h
      · -- It joins now, unless it was a member already.
        rintro (⟨group', ⟨rfl, rfl, rfl⟩, rfl⟩ | h)
        · split_ifs with hnew
          · simp
          · by_contra hmem
            exact hnew ⟨rfl, rfl, hmem⟩
        · split_ifs with hnew
          · exact List.mem_append_left _ h
          · exact h
    | unsubscribe c' =>
      simp only [call, members_unsubscribe, List.mem_filter, Joins, reduceCtorEq, false_and,
        exists_false, false_or, decide_eq_true_eq, ne_eq, RouterCall.unsubscribe.injEq]
      rw [eq_comm (a := c)]
    | route msg =>
      simp [call, members_route, Joins]

/-- What one more call does to the time at which a client joined. -/
theorem joinedAt_concat (x : RouterCall) :
    joinedAt topic g c (calls ++ [x]) =
      match x with
      | .subscribe topic' group c' =>
        if topic' = topic ∧ c' = c ∧ groupKey group c = g then
          (joinedAt topic g c calls).or (some calls.length)
        else joinedAt topic g c calls
      | .unsubscribe c' => if c' = c then none else joinedAt topic g c calls
      | .route _ => joinedAt topic g c calls := by
  cases x <;> simp [joinedAt, List.zipIdx_append]

/-- The call by which a client joined is one of the history. -/
theorem joinedAt_lt {i : ℕ} (h : joinedAt topic g c calls = some i) : i < calls.length := by
  induction calls using List.reverseRecOn with
  | nil => simp [joinedAt] at h
  | append_singleton calls x ih =>
    rw [joinedAt_concat] at h
    rw [List.length_append, List.length_singleton]
    cases x with
    | subscribe topic' group c' =>
      dsimp only at h
      split_ifs at h with hjoin
      · cases hold : joinedAt topic g c calls with
        | none =>
          rw [hold, Option.none_or, Option.some.injEq] at h
          omega
        | some j =>
          rw [hold, Option.some_or] at h
          have := ih (hold.trans h)
          omega
      · have := ih h
        omega
    | unsubscribe c' =>
      dsimp only at h
      split_ifs at h with hc
      have := ih h
      omega
    | route msg =>
      have := ih h
      omega

/-- Two members of a group, of which the one joined before the other. -/
def JoinedBefore (calls : List RouterCall) (topic g : Bytes) (a b : ClientId) : Prop :=
  ∃ i j, joinedAt topic g a calls = some i ∧ joinedAt topic g b calls = some j ∧ i < j

/-- The time at which a client joined is known exactly while it is a member. -/
theorem joinedAt_isSome_iff :
    (joinedAt topic g c calls).isSome = true ↔ c ∈ (afterCalls calls).members topic g := by
  rw [mem_members_iff]
  induction calls using List.reverseRecOn with
  | nil =>
    have hnot : ¬ Subscribed [] topic g c := by
      rintro ⟨before, group, after, heq, -⟩
      simp at heq
    simp [joinedAt, hnot]
  | append_singleton calls x ih =>
    rw [joinedAt_concat, subscribed_concat, ← ih]
    cases x with
    | subscribe topic' group c' =>
      dsimp only
      split_ifs with hjoin
      · obtain ⟨rfl, rfl, rfl⟩ := hjoin
        simp [Joins]
      · have hnot : ¬ Joins topic g c (.subscribe topic' group c') := by
          rintro ⟨group', heq, hkey⟩
          obtain ⟨rfl, rfl, rfl⟩ := RouterCall.subscribe.inj heq
          exact hjoin ⟨rfl, rfl, hkey⟩
        simp [hnot]
    | unsubscribe c' =>
      dsimp only
      split_ifs with hc
      · simp [Joins, hc]
      · simp [Joins, hc]
    | route msg => simp [Joins]

/-- The time at which a member joined does not change while it stays. -/
theorem joinedAt_of_stays {x : RouterCall} (h : c ∈ (afterCalls calls).members topic g)
    (hx : x ≠ .unsubscribe c) : joinedAt topic g c (calls ++ [x]) = joinedAt topic g c calls := by
  obtain ⟨i, hi⟩ := Option.isSome_iff_exists.mp (joinedAt_isSome_iff.mpr h)
  rw [joinedAt_concat]
  cases x with
  | subscribe topic' group c' =>
    dsimp only
    split_ifs
    · rw [hi, Option.some_or]
    · rfl
  | unsubscribe c' =>
    dsimp only
    rw [if_neg fun heq => hx (by rw [heq])]
  | route msg => rfl

/-- Members that stay keep their order. -/
theorem pairwise_joinedBefore_of_stay {x : RouterCall} {l : List ClientId}
    (hl : ∀ c ∈ l, c ∈ (afterCalls calls).members topic g ∧ x ≠ .unsubscribe c)
    (h : l.Pairwise (JoinedBefore calls topic g)) :
    l.Pairwise (JoinedBefore (calls ++ [x]) topic g) := by
  refine h.imp_of_mem fun {a b} ha hb => ?_
  rintro ⟨i, j, hi, hj, hij⟩
  exact ⟨i, j, by rw [joinedAt_of_stays (hl a ha).1 (hl a ha).2, hi],
    by rw [joinedAt_of_stays (hl b hb).1 (hl b hb).2, hj], hij⟩

/-- The members of a group are in the order in which they joined. -/
theorem pairwise_joinedBefore (calls : List RouterCall) (topic g : Bytes) :
    ((afterCalls calls).members topic g).Pairwise (JoinedBefore calls topic g) := by
  induction calls using List.reverseRecOn with
  | nil => exact List.Pairwise.nil
  | append_singleton calls x ih =>
    rw [afterCalls_concat]
    cases x with
    | subscribe topic' group c' =>
      have hstay := pairwise_joinedBefore_of_stay (x := .subscribe topic' group c')
        (fun c hc => ⟨hc, by simp⟩) ih
      rw [call, members_subscribe]
      split_ifs with hnew
      · obtain ⟨rfl, rfl, hnot⟩ := hnew
        refine List.pairwise_append.mpr ⟨hstay, List.pairwise_singleton _ _, ?_⟩
        -- The new member joins now, and all others before.
        intro a ha b hb
        obtain rfl := List.mem_singleton.mp hb
        obtain ⟨i, hi⟩ := Option.isSome_iff_exists.mp (joinedAt_isSome_iff.mpr ha)
        have hnone : joinedAt topic (groupKey group b) b calls = none := by
          rw [← Option.not_isSome_iff_eq_none, joinedAt_isSome_iff]
          exact hnot
        refine ⟨i, calls.length, by rw [joinedAt_of_stays ha (by simp), hi], ?_, joinedAt_lt hi⟩
        rw [joinedAt_concat]
        dsimp only
        rw [if_pos ⟨rfl, rfl, rfl⟩, hnone, Option.none_or]
      · exact hstay
    | unsubscribe c' =>
      rw [call, members_unsubscribe]
      refine pairwise_joinedBefore_of_stay (fun c hc => ?_) (ih.filter _)
      rw [List.mem_filter, decide_eq_true_eq] at hc
      exact ⟨hc.1, by simpa using Ne.symm hc.2⟩
    | route msg =>
      rw [call, members_route]
      exact pairwise_joinedBefore_of_stay (fun c hc => ⟨hc, by simp⟩) ih

/-! ## Nothing empty is stored -/

/-- A map with a value has an entry, and the other way round. -/
theorem entries_ne_nil_iff {groups : Groups} :
    groups.entries ≠ [] ↔ ∃ g state, groups.lookup g = some state := by
  constructor
  · intro h
    obtain ⟨⟨g, state⟩, hmem⟩ := List.exists_mem_of_ne_nil _ h
    exact ⟨g, state, AList.mem_entries_iff.mp hmem⟩
  · rintro ⟨g, state, h⟩
    exact List.ne_nil_of_mem (AList.mem_entries_iff.mpr h)

/-- A group that is found is not empty. -/
theorem Tidy.members_ne_nil (h : r.Tidy) {state : GroupState}
    (hg : r.group pattern g = some state) :
    state.members ≠ [] := by
  unfold TopicRouter.group TopicRouter.groups at hg
  cases hp : r.subscriptions.lookup pattern with
  | none => simp [hp] at hg
  | some groups =>
    rw [hp, Option.getD_some] at hg
    exact (h pattern groups hp).2 g state hg

theorem tidy_empty : Tidy empty := by
  intro pattern groups h
  simp [empty] at h

theorem Tidy.subscribe (h : r.Tidy) (topic group : Bytes) (c : ClientId) :
    (r.subscribe topic group c).Tidy := by
  intro pattern groups hp
  by_cases heq : pattern = topic
  · subst heq
    have hgroups : groups = (r.subscribe pattern group c).groups pattern := by
      rw [TopicRouter.groups, hp, Option.getD_some]
    constructor
    · have hnew := (group_subscribe r pattern group c pattern (groupKey group c)).trans
        (if_pos ⟨rfl, rfl⟩)
      rw [hgroups]
      exact entries_ne_nil_iff.mpr ⟨groupKey group c, _, hnew⟩
    · intro g state hg
      rw [hgroups] at hg
      have hstate := (group_subscribe r pattern group c pattern g).symm.trans hg
      split_ifs at hstate with hkey
      · rw [← Option.some.inj hstate, members_join]
        split_ifs with hmem
        · exact List.ne_nil_of_mem hmem
        · simp
      · exact h.members_ne_nil hstate
  · have hold : r.subscriptions.lookup pattern = some groups :=
      (AList.lookup_insert_ne heq).symm.trans hp
    exact h pattern groups hold

theorem tidy_unsubscribe (r : TopicRouter) (c : ClientId) : (r.unsubscribe c).Tidy := by
  intro pattern groups hp
  have hlookup := AList.lookup_filterMapVal (fun (_ : Bytes) (groups : Groups) =>
    let left := leaveGroups groups c
    if left.entries.isEmpty then none else some left) r.subscriptions pattern
  rw [show AList.lookup pattern _ = some groups from hp] at hlookup
  obtain ⟨groups', -, hleft⟩ := Option.bind_eq_some_iff.mp hlookup.symm
  dsimp only at hleft
  split_ifs at hleft with hempty
  obtain rfl := Option.some.inj hleft
  refine ⟨by simpa using hempty, fun g state hg => ?_⟩
  -- The groups that are left are those with members.
  have hleave := AList.lookup_filterMapVal (fun (_ : Bytes) (g : GroupState) =>
    let members := g.members.filter (· ≠ c)
    if members.isEmpty then none else some (⟨members, g.rr_idx, g.nodup.filter _⟩ : GroupState))
    groups' g
  rw [show AList.lookup g _ = some state from hg] at hleave
  obtain ⟨state', -, hstate⟩ := Option.bind_eq_some_iff.mp hleave.symm
  dsimp only at hstate
  split_ifs at hstate with hnil
  obtain rfl := Option.some.inj hstate
  simpa using hnil

theorem Tidy.advance (h : r.Tidy) (topic : Bytes) : (r.advance topic).Tidy := by
  intro pattern groups hp
  have hgroups : ∀ g, groups.lookup g = (r.advance topic).group pattern g := by
    intro g
    rw [TopicRouter.group, TopicRouter.groups, hp, Option.getD_some]
  -- No pattern is new.
  have hold : ∃ groups', r.subscriptions.lookup pattern = some groups' := by
    have hlookup := AList.lookup_filterMapVal (fun (pattern : Bytes) (groups : Groups) =>
      some (if topicMatches pattern topic then
        groups.filterMapVal fun group g => some (GroupState.advance group g) else groups))
      r.subscriptions pattern
    rw [show AList.lookup pattern _ = some groups from hp] at hlookup
    obtain ⟨groups', hgroups', -⟩ := Option.bind_eq_some_iff.mp hlookup.symm
    exact ⟨groups', hgroups'⟩
  obtain ⟨groups', hp'⟩ := hold
  constructor
  · obtain ⟨g, state, hg⟩ := entries_ne_nil_iff.mp (h pattern groups' hp').1
    have hgroup : r.group pattern g = some state := by
      rw [TopicRouter.group, TopicRouter.groups, hp', Option.getD_some, hg]
    have hnew := hgroups g
    rw [group_advance, hgroup, Option.map_some] at hnew
    exact entries_ne_nil_iff.mpr ⟨g, _, hnew⟩
  · intro g state hg
    rw [hgroups, group_advance] at hg
    obtain ⟨state', hstate', rfl⟩ := Option.map_eq_some_iff.mp hg
    have hne := h.members_ne_nil hstate'
    split_ifs
    · rwa [members_advance]
    · exact hne

/-- No call stores anything empty. -/
theorem tidy_afterCalls (calls : List RouterCall) : (afterCalls calls).Tidy := by
  induction calls using List.reverseRecOn with
  | nil => exact tidy_empty
  | append_singleton calls x ih =>
    rw [afterCalls_concat]
    cases x with
    | subscribe topic group c => exact ih.subscribe topic group c
    | unsubscribe c => exact tidy_unsubscribe _ c
    | route msg => exact ih.advance msg.topic

/-- `unsubscribe` leaves a group without the client as it is. -/
theorem group_unsubscribe_of_not_mem (h : r.Tidy) (hc : c ∉ r.members pattern g) :
    (r.unsubscribe c).group pattern g = r.group pattern g := by
  rw [group_unsubscribe]
  cases hg : r.group pattern g with
  | none => rfl
  | some state =>
    rw [members_eq, hg, Option.map_some, Option.getD_some] at hc
    have hfilter : state.members.filter (· ≠ c) = state.members :=
      List.filter_eq_self.mpr fun a ha => by
        rw [decide_eq_true_eq]
        exact fun heq => hc (heq ▸ ha)
    have hempty : (state.members.filter (· ≠ c)).isEmpty = false := by
      rw [hfilter, List.isEmpty_eq_false_iff]
      exact h.members_ne_nil hg
    rw [Option.bind_some, hempty]
    simp only [Bool.false_eq_true, if_false, hfilter]

/-- What the router stores after any history: who is a member, in which order, that nothing empty is
stored, and what `unsubscribe` leaves as it is. -/
theorem router_refines_history (calls : List RouterCall) :
    (∀ topic g c, c ∈ (afterCalls calls).members topic g ↔ Subscribed calls topic g c) ∧
    (∀ topic g, ((afterCalls calls).members topic g).Nodup ∧
      ((afterCalls calls).members topic g).Pairwise (JoinedBefore calls topic g)) ∧
    (∀ pattern groups, (afterCalls calls).subscriptions.lookup pattern = some groups →
      groups.entries ≠ [] ∧ ∀ g state, groups.lookup g = some state → 0 < state.members.length) ∧
    (∀ c pattern g,
      (c ∉ (afterCalls calls).members pattern g →
        ((afterCalls calls).unsubscribe c).group pattern g = (afterCalls calls).group pattern g) ∧
      ((afterCalls calls).unsubscribe c).members pattern g =
        ((afterCalls calls).members pattern g).filter (· ≠ c)) := by
  refine ⟨fun topic g c => mem_members_iff,
    fun topic g => ⟨nodup_members _ topic g, pairwise_joinedBefore calls topic g⟩,
    fun pattern groups h => ?_, fun c pattern g => ⟨?_, members_unsubscribe _ c pattern g⟩⟩
  · obtain ⟨hentries, hstates⟩ := tidy_afterCalls calls pattern groups h
    exact ⟨hentries, fun g state hg => List.length_pos_iff.mpr (hstates g state hg)⟩
  · exact group_unsubscribe_of_not_mem (tidy_afterCalls calls)

end TopicRouter

end EventQueue.Broker
