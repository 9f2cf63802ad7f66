import EventQueue.Broker.Subscriptions

/-!
# Who gets a copy

What `route` owes after a history: to each pair of a matching pattern and a group that was requested
by name, one target, which is a member of the group; to each client that subscribed to a matching
pattern without a group, a target of its own. `FanoutExact` says that the targets are these and no
others, name by name under which the router stores a subscription.

Groups and independent subscribers share those names. A group whose requested name starts with
`__unique_` is taken for independent subscribers, and one that is called like an independent
subscriber's own group is merged with it. `Separate` is what is left: under such a name there is one
client that requested it and is not the independent subscriber that the name stands for.
-/

namespace EventQueue.Broker

namespace TopicRouter

variable {r : TopicRouter} {topic pattern g : Bytes} {c : ClientId} {calls : List RouterCall}

/-- The clients that a list of targets names for one group of one pattern. -/
def given (ts : List Target) (pattern g : Bytes) : List ClientId :=
  (ts.filter fun t => t.pattern = pattern ∧ t.group = g).map Target.client_id

/-- The targets of a group among those of its pattern. -/
theorem filter_groupTargets (groups : Groups) (pattern g : Bytes) :
    (groupTargets pattern groups).filter (fun t => t.pattern = pattern ∧ t.group = g) =
      ((groups.lookup g).map fun state =>
        (GroupState.selected g state).map fun c => ⟨pattern, g, c⟩).getD [] := by
  rw [groupTargets, List.filter_flatMap, AList.flatMap_entries_of_key (k := g)]
  · cases groups.lookup g with
    | none => rfl
    | some state => simp
  · intro e _ hne
    simp [hne]

/-- What `route` gives to a group: what the group selects, when its pattern matches. -/
theorem given_targets (r : TopicRouter) (topic pattern g : Bytes) :
    given (r.targets topic) pattern g =
      if topicMatches pattern topic then
        ((r.group pattern g).map (GroupState.selected g)).getD []
      else [] := by
  -- Entries of other patterns contribute nothing.
  have hother : ∀ e ∈ r.subscriptions.entries, e.1 ≠ pattern →
      (if topicMatches e.1 topic then groupTargets e.1 e.2 else []).filter
        (fun t => t.pattern = pattern ∧ t.group = g) = [] := by
    intro e _ hne
    refine List.filter_eq_nil_iff.mpr fun t ht => ?_
    have hpattern : t.pattern = e.1 := by
      split_ifs at ht
      · obtain ⟨e', -, ht⟩ := List.mem_flatMap.mp ht
        obtain ⟨c, -, rfl⟩ := List.mem_map.mp ht
        rfl
      · cases ht
    simp [hpattern, hne]
  rw [given, targets, List.filter_flatMap, AList.flatMap_entries_of_key hother]
  unfold TopicRouter.group TopicRouter.groups
  cases r.subscriptions.lookup pattern with
  | none => simp
  | some groups =>
    rw [Option.map_some, Option.getD_some, Option.getD_some]
    split_ifs with hmatch
    · rw [filter_groupTargets]
      cases groups.lookup g with
      | none => rfl
      | some state => simp [Function.comp_def]
    · rfl

/-- A client has subscribed to a pattern with a group, empty or not, and has not unsubscribed
since. -/
def Requested (calls : List RouterCall) (pattern group : Bytes) (c : ClientId) : Prop :=
  ∃ before after, calls = before ++ RouterCall.subscribe pattern group c :: after ∧
    RouterCall.unsubscribe c ∉ after

/-- The client is a live member of a group that it requested by name. -/
def Named (calls : List RouterCall) (pattern g : Bytes) (c : ClientId) : Prop :=
  g ≠ [] ∧ Requested calls pattern g c

/-- The client has a live subscription without a group, which is stored under the name `g`. -/
def Alone (calls : List RouterCall) (pattern g : Bytes) (c : ClientId) : Prop :=
  Requested calls pattern [] c ∧ groupKey [] c = g

/-- What is stored under a name is what was requested under it, and the independent subscriber that
it stands for. -/
theorem mem_members_iff_named_or_alone :
    c ∈ (afterCalls calls).members pattern g ↔
      Named calls pattern g c ∨ Alone calls pattern g c := by
  rw [mem_members_iff]
  constructor
  · rintro ⟨before, group, after, hcalls, hkey, hnot⟩
    -- The name is the group itself, or stands for a client without one.
    cases group with
    | nil => exact .inr ⟨⟨before, after, hcalls, hnot⟩, hkey⟩
    | cons b group =>
      obtain rfl : b :: group = g := hkey
      exact .inl ⟨List.cons_ne_nil _ _, before, after, hcalls, hnot⟩
  · rintro (⟨hne, before, after, hcalls, hnot⟩ | ⟨⟨before, after, hcalls, hnot⟩, hkey⟩)
    · refine ⟨before, g, after, hcalls, ?_, hnot⟩
      rw [groupKey, List.isEmpty_eq_false_iff.mpr hne]
      rfl
    · exact ⟨before, [], after, hcalls, hkey, hnot⟩

/-- What is owed under a name: one client for the group, if it has a member, and each independent
subscriber that the name stands for. -/
structure Owed (calls : List RouterCall) (pattern g : Bytes) (chosen alone : List ClientId) :
    Prop where
  /-- One member of the group. -/
  one : (∃ c, Named calls pattern g c) → ∃ c, chosen = [c] ∧ Named calls pattern g c
  /-- Nobody for a group without a member. -/
  nobody : (¬∃ c, Named calls pattern g c) → chosen = []
  /-- Nobody is listed twice. -/
  nodup : alone.Nodup
  /-- The independent subscribers. -/
  mem_alone : ∀ c, c ∈ alone ↔ Alone calls pattern g c

/-- The targets are exactly what is owed. -/
def FanoutExact (calls : List RouterCall) (topic : Bytes) (ts : List Target) : Prop :=
  ∀ pattern g,
    if topicMatches pattern topic then
      ∃ chosen alone, Owed calls pattern g chosen alone ∧
        (given ts pattern g).Perm (chosen ++ alone)
    else given ts pattern g = []

/-- Under a name that starts with `__unique_` and that was requested, there is one client that
requested it and is not the independent subscriber that the name stands for. -/
def Separate (calls : List RouterCall) (topic : Bytes) : Prop :=
  ∀ pattern g, topicMatches pattern topic = true → isUnique g = true →
    (∃ c, Named calls pattern g c) → ∃! c, Named calls pattern g c ∧ ¬Alone calls pattern g c

/-- Only a name that starts with `__unique_` stands for an independent subscriber. -/
theorem Alone.isUnique (h : Alone calls pattern g c) : isUnique g = true := by
  rw [← h.2]
  exact isUnique_groupKey_nil c

/-- A competing group gives what is owed. -/
theorem exists_owed_of_competing (calls : List RouterCall) (pattern : Bytes)
    (hg : isUnique g = false) :
    ∃ chosen alone, Owed calls pattern g chosen alone ∧
      ((((afterCalls calls).group pattern g).map (GroupState.selected g)).getD []).Perm
        (chosen ++ alone) := by
  -- The name is nobody's own, so the members are those who requested it.
  have halone : ∀ c, ¬Alone calls pattern g c := fun c h => by
    rw [h.isUnique] at hg
    cases hg
  have hnamed : ∀ c, c ∈ (afterCalls calls).members pattern g ↔ Named calls pattern g c := fun c =>
    mem_members_iff_named_or_alone.trans (or_iff_left (halone c))
  cases hstate : (afterCalls calls).group pattern g with
  | none =>
    have hnone : ¬∃ c, Named calls pattern g c := by
      rintro ⟨c, hc⟩
      have hmem := (hnamed c).mpr hc
      rw [members_eq, hstate] at hmem
      cases hmem
    refine ⟨[], [], ⟨fun h => absurd h hnone, fun _ => rfl, List.nodup_nil, fun c => ?_⟩,
      List.Perm.refl _⟩
    exact ⟨fun h => absurd h List.not_mem_nil, fun h => absurd h (halone c)⟩
  | some state =>
    have hmembers : (afterCalls calls).members pattern g = state.members := by
      rw [members_eq, hstate]
      rfl
    have hpos : 0 < state.members.length :=
      List.length_pos_iff.mpr ((tidy_afterCalls calls).members_ne_nil hstate)
    have hlt := Nat.mod_lt state.rr_idx.toNat hpos
    -- The member at `rr_idx` is the one that gets the copy.
    have hselected : GroupState.selected g state =
        [state.members.get ⟨state.rr_idx.toNat % state.members.length, hlt⟩] := by
      rw [GroupState.selected, hg, List.getElem?_eq_getElem hlt]
      rfl
    have hmem : Named calls pattern g (state.members.get ⟨_, hlt⟩) := by
      rw [← hnamed, hmembers]
      exact List.get_mem _ _
    refine ⟨[state.members.get ⟨_, hlt⟩], [], ⟨fun _ => ⟨_, rfl, hmem⟩, fun h => ?_,
      List.nodup_nil, fun c => ?_⟩, ?_⟩
    · exact absurd ⟨_, hmem⟩ h
    · exact ⟨fun h => absurd h List.not_mem_nil, fun h => absurd h (halone c)⟩
    · rw [Option.map_some, Option.getD_some, hselected, List.append_nil]

/-- The members under a name that starts with `__unique_`, all of whom get a copy, are what is owed
exactly when one client that requested the name is not the independent subscriber that it stands
for, if any has. -/
theorem exists_owed_iff_of_members {members : List ClientId} (hnodup : members.Nodup)
    (hmembers : ∀ c, c ∈ members ↔ Named calls pattern g c ∨ Alone calls pattern g c) :
    (∃ chosen alone, Owed calls pattern g chosen alone ∧ members.Perm (chosen ++ alone)) ↔
      ((∃ c, Named calls pattern g c) →
        ∃! c, Named calls pattern g c ∧ ¬Alone calls pattern g c) := by
  constructor
  · rintro ⟨chosen, alone, howed, hperm⟩ hnamed
    -- One client stands for the group, and the others are independent.
    obtain ⟨c₀, rfl, hc₀⟩ := howed.one hnamed
    have hnot : c₀ ∉ alone := (List.nodup_cons.mp (hperm.nodup_iff.mp hnodup)).1
    refine ⟨c₀, ⟨hc₀, fun h => hnot ((howed.mem_alone c₀).mpr h)⟩, ?_⟩
    rintro c ⟨hc, halone⟩
    rcases List.mem_cons.mp (hperm.subset ((hmembers c).mpr (.inl hc))) with rfl | hmem
    · rfl
    · exact absurd ((howed.mem_alone c).mp hmem) halone
  · intro h
    by_cases hnamed : ∃ c, Named calls pattern g c
    · -- the client of the group is taken out, and the independent subscriber is left
      obtain ⟨c₀, ⟨hc₀, hnot⟩, hunique⟩ := h hnamed
      refine ⟨[c₀], members.erase c₀, ⟨fun _ => ⟨c₀, rfl, hc₀⟩, fun h => absurd hnamed h,
        hnodup.erase c₀, fun c => ?_⟩, List.perm_cons_erase ((hmembers c₀).mpr (.inl hc₀))⟩
      rw [hnodup.mem_erase_iff, hmembers]
      constructor
      · rintro ⟨hne, hc | hc⟩
        · by_contra halone
          exact hne (hunique c ⟨hc, halone⟩)
        · exact hc
      · intro hc
        refine ⟨fun heq => hnot (heq ▸ hc), .inr hc⟩
    · refine ⟨[], members, ⟨fun h => absurd h hnamed, fun _ => rfl, hnodup, fun c => ?_⟩,
        List.Perm.refl _⟩
      rw [hmembers]
      exact or_iff_right fun hc => hnamed ⟨c, hc⟩

/-- After every history, and for every message: `route` returns exactly what is owed if and only if
the groups that are requested under an independent subscriber's kind of name are separate. -/
theorem fanout_exact_iff (calls : List RouterCall) (msg : Message) :
    FanoutExact calls msg.topic ((afterCalls calls).route msg).1 ↔ Separate calls msg.topic := by
  refine forall₂_congr fun pattern g => ?_
  rw [route, given_targets]
  split_ifs with hmatch
  · cases hg : isUnique g with
    | false => simpa [hmatch] using exists_owed_of_competing calls pattern hg
    | true =>
      -- All members get a copy.
      have hselected :
          ((((afterCalls calls).group pattern g).map (GroupState.selected g)).getD []) =
          (afterCalls calls).members pattern g := by
        rw [members_eq]
        cases (afterCalls calls).group pattern g with
        | none => rfl
        | some state => simp [GroupState.selected, hg]
      rw [hselected, exists_owed_iff_of_members (nodup_members _ pattern g) fun c =>
        mem_members_iff_named_or_alone]
      simp [hmatch]
  · simp [hmatch]

/-- Two clients compete in a group that they have called `__unique_team`. -/
def reservedName : List RouterCall :=
  [.subscribe [0x74] (ascii "__unique_team") 1, .subscribe [0x74] (ascii "__unique_team") 2]

/-- Both of them get a copy. -/
theorem reserved_name_not_competing :
    ¬FanoutExact reservedName [0x74] ((afterCalls reservedName).route ⟨1, [0x74], [], 0, 0⟩).1 := by
  intro h
  have hname := h [0x74] (ascii "__unique_team")
  have hgiven : given ((afterCalls reservedName).route ⟨1, [0x74], [], 0, 0⟩).1 [0x74]
      (ascii "__unique_team") = [1, 2] := by decide
  rw [if_pos (by decide), hgiven] at hname
  obtain ⟨chosen, alone, howed, hperm⟩ := hname
  have hnamed : Named reservedName [0x74] (ascii "__unique_team") 1 :=
    ⟨by decide, [], _, rfl, by decide⟩
  obtain ⟨c, rfl, -⟩ := howed.one ⟨1, hnamed⟩
  -- Nobody subscribed without a group.
  have halone : alone = [] := by
    refine List.eq_nil_iff_forall_not_mem.mpr fun c hc => ?_
    obtain ⟨⟨before, after, hcalls, -⟩, -⟩ := (howed.mem_alone c).mp hc
    have hmem : RouterCall.subscribe [0x74] [] c ∈ reservedName := by rw [hcalls]; simp
    simp [reservedName, ascii] at hmem
  subst halone
  exact absurd hperm.length_eq (by simp)

end TopicRouter

end EventQueue.Broker
