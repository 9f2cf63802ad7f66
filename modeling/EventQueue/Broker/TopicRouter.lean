import EventQueue.Broker.Message
import EventQueue.Lib.AssocMap

/-!
# The topic router

`TopicRouter` of `broker/src/TopicRouter.cpp`: a map from a topic pattern to a map from a group's
name to the group's members, in order of joining, and its round-robin index. A subscriber without a
group is the only member of a group of its own, whose name is `__unique_` and the client's number;
`route` tells the two kinds of group apart by that prefix.

The two maps are `std::unordered_map`s, whose order of iteration the language leaves open. Here it
is the order of the entries; `Main.lean` lets a run take the targets in any order.
-/

namespace EventQueue.Broker

/-- `std::to_string` of a signed integer. -/
def decimal (n : ℤ) : Bytes :=
  (if n < 0 then ascii "-" else []) ++ (Nat.toDigits 10 n.natAbs).map fun c => c.toNat.toUInt8

/-- The prefix of the name that an independent subscriber's group gets. -/
def uniquePrefix : Bytes := ascii "__unique_"

/-- The members of a group, and the index that its round robin has reached. -/
structure GroupState where
  /-- The members, in order of joining. -/
  members : List ClientId
  /-- The round-robin index, which wraps as a `size_t` does. -/
  rr_idx : UInt64
  /-- A client joins a group once. -/
  nodup : members.Nodup
deriving DecidableEq

/-- The groups of one pattern. -/
abbrev Groups := AList fun _ : Bytes => GroupState

/-- `subscriptions_`. -/
structure TopicRouter where
  /-- Pattern to group name to group. -/
  subscriptions : AList fun _ : Bytes => Groups

namespace TopicRouter

/-- The router without subscriptions. -/
def empty : TopicRouter := ⟨∅⟩

/-- The name under which a subscription is stored. -/
def groupKey (group : Bytes) (client_id : ClientId) : Bytes :=
  if group.isEmpty then uniquePrefix ++ decimal client_id else group

/-- The groups of a pattern, none when it is not stored. -/
def groups (r : TopicRouter) (pattern : Bytes) : Groups :=
  (r.subscriptions.lookup pattern).getD ∅

/-- The members of a group of a pattern, none when it is not stored. -/
def members (r : TopicRouter) (pattern group : Bytes) : List ClientId :=
  (((r.groups pattern).lookup group).map GroupState.members).getD []

/-- Add a member that is not there yet. -/
def GroupState.join (g : GroupState) (client_id : ClientId) : GroupState :=
  if h : client_id ∈ g.members then g
  else ⟨g.members ++ [client_id], g.rr_idx, List.nodup_append'.mpr
    ⟨g.nodup, List.nodup_singleton _, List.disjoint_singleton.mpr h⟩⟩

/-- `subscribe`. -/
def subscribe (r : TopicRouter) (topic group : Bytes) (client_id : ClientId) : TopicRouter :=
  let key := groupKey group client_id
  let state := ((r.groups topic).lookup key).getD ⟨[], 0, List.nodup_nil⟩
  ⟨r.subscriptions.insert topic ((r.groups topic).insert key (GroupState.join state client_id))⟩

/-- Remove a client from the groups of one pattern, and the groups that this empties. -/
def leaveGroups (groups : Groups) (client_id : ClientId) : Groups :=
  groups.filterMapVal fun _ g =>
    let members := g.members.filter (· ≠ client_id)
    if members.isEmpty then none else some ⟨members, g.rr_idx, g.nodup.filter _⟩

/-- `unsubscribe`: remove a client everywhere, with the groups and patterns that this empties. -/
def unsubscribe (r : TopicRouter) (client_id : ClientId) : TopicRouter :=
  ⟨r.subscriptions.filterMapVal fun _ groups =>
    let left := leaveGroups groups client_id
    if left.entries.isEmpty then none else some left⟩

/-- `matches`: equal strings, or the pattern's part before its first `*` is a prefix of the topic;
an empty such part matches everything. -/
def topicMatches (pattern topic : Bytes) : Bool :=
  if pattern = topic then true
  else
    match pattern.idxOf? 0x2A with
    | none => false
    | some star =>
      let pre := pattern.take star
      if !pre.isEmpty && topic.take pre.length = pre then true
      else pre.isEmpty

/-- Whether a group's name is that of an independent subscriber, as `route` decides it. -/
def isUnique (group : Bytes) : Bool := uniquePrefix.isPrefixOf group

/-- One element of the list that `route` returns: the client, with the subscription that it stands
for. The source returns the client and `msg.msg_id`. -/
structure Target where
  /-- The pattern that matched. -/
  pattern : Bytes
  /-- The group's name, as it is stored. -/
  group : Bytes
  /-- The client that the message goes to. -/
  client_id : ClientId
deriving DecidableEq, Repr

/-- The clients that a group gives a message to: all of them in an independent subscriber's group,
and the one at the round-robin index in a competing group. -/
def GroupState.selected (group : Bytes) (g : GroupState) : List ClientId :=
  if isUnique group then g.members
  else (g.members[g.rr_idx.toNat % g.members.length]?).toList

/-- The group after it has given a message out. -/
def GroupState.advance (group : Bytes) (g : GroupState) : GroupState :=
  if g.members.isEmpty || isUnique group then g else { g with rr_idx := g.rr_idx + 1 }

/-- The targets of a message among the groups of one pattern. -/
def groupTargets (pattern : Bytes) (groups : Groups) : List Target :=
  groups.entries.flatMap fun e => (GroupState.selected e.1 e.2).map fun c => ⟨pattern, e.1, c⟩

/-- The targets that `route` returns for a topic. -/
def targets (r : TopicRouter) (topic : Bytes) : List Target :=
  r.subscriptions.entries.flatMap fun e =>
    if topicMatches e.1 topic then groupTargets e.1 e.2 else []

/-- The router after `route`: the competing groups of the matching patterns have advanced. -/
def advance (r : TopicRouter) (topic : Bytes) : TopicRouter :=
  ⟨r.subscriptions.filterMapVal fun pattern groups =>
    some (if topicMatches pattern topic then
      groups.filterMapVal fun group g => some (GroupState.advance group g) else groups)⟩

/-- `route`: the targets of a message, and the router with its indices advanced. -/
def route (r : TopicRouter) (msg : Message) : List Target × TopicRouter :=
  (r.targets msg.topic, r.advance msg.topic)

/-! ## Who gets a message -/

variable {r : TopicRouter} {topic pattern group : Bytes} {t : Target} {c : ClientId}

/-- A group that is stored is found by its pattern and its name. -/
theorem exists_of_mem_members (h : c ∈ r.members pattern group) :
    ∃ groups g, r.subscriptions.lookup pattern = some groups ∧ groups.lookup group = some g ∧
      c ∈ g.members := by
  unfold members TopicRouter.groups at h
  cases hp : r.subscriptions.lookup pattern with
  | none => simp [hp] at h
  | some groups =>
    rw [hp, Option.getD_some] at h
    cases hg : groups.lookup group with
    | none => simp [hg] at h
    | some g => exact ⟨groups, g, rfl, hg, by simpa [hg] using h⟩

/-- A client that a stored group of a matching pattern selects is a target. -/
theorem mem_targets {groups : Groups} {g : GroupState} (hmatch : topicMatches pattern topic = true)
    (hp : r.subscriptions.lookup pattern = some groups) (hg : groups.lookup group = some g)
    (hc : c ∈ GroupState.selected group g) : ⟨pattern, group, c⟩ ∈ r.targets topic := by
  refine List.mem_flatMap.mpr ⟨⟨pattern, groups⟩, AList.mem_entries_iff.mpr hp, ?_⟩
  rw [if_pos hmatch]
  refine List.mem_flatMap.mpr ⟨⟨group, g⟩, AList.mem_entries_iff.mpr hg, ?_⟩
  exact List.mem_map.mpr ⟨c, hc, rfl⟩

/-- A member of an independent subscriber's group is a target of every matching message. -/
theorem mem_targets_of_unique (hmatch : topicMatches pattern topic = true)
    (hunique : isUnique group = true) (hc : c ∈ r.members pattern group) :
    ⟨pattern, group, c⟩ ∈ r.targets topic := by
  obtain ⟨groups, g, hp, hg, hmem⟩ := exists_of_mem_members hc
  exact mem_targets hmatch hp hg (by simpa [GroupState.selected, hunique] using hmem)

/-- The only member of a group is a target of every matching message. -/
theorem mem_targets_of_only (hmatch : topicMatches pattern topic = true)
    (hc : c ∈ r.members pattern group) (honly : ∀ x ∈ r.members pattern group, x = c) :
    ⟨pattern, group, c⟩ ∈ r.targets topic := by
  obtain ⟨groups, g, hp, hg, hmem⟩ := exists_of_mem_members hc
  have hmembers : r.members pattern group = g.members := by
    simp [members, TopicRouter.groups, hp, hg]
  have hpos : 0 < g.members.length := List.length_pos_of_mem hmem
  refine mem_targets hmatch hp hg ?_
  unfold GroupState.selected
  split_ifs
  · exact hmem
  · -- whoever the round robin selects is a member, and so the only one
    have hlt := Nat.mod_lt g.rr_idx.toNat hpos
    rw [hmembers] at honly
    have hselected := honly _ (List.getElem_mem hlt)
    rw [List.getElem?_eq_getElem hlt, hselected]
    exact List.mem_singleton_self c

/-- Whether a group of a pattern that matches the topic has a member. -/
def hasSubscriber (r : TopicRouter) (topic : Bytes) : Bool :=
  r.subscriptions.entries.any fun e =>
    topicMatches e.1 topic && e.2.entries.any fun g => !g.2.members.isEmpty

/-- A message has a target as soon as a group of a matching pattern has a member. -/
theorem targets_ne_nil (h : r.hasSubscriber topic = true) : r.targets topic ≠ [] := by
  obtain ⟨⟨pattern, groups⟩, hp, h⟩ := List.any_eq_true.mp h
  obtain ⟨hmatch, h⟩ := Bool.and_eq_true_iff.mp h
  obtain ⟨⟨group, g⟩, hg, hmem⟩ := List.any_eq_true.mp h
  have hpos : 0 < g.members.length := by
    simpa [List.length_pos_iff] using hmem
  have hselected : GroupState.selected group g ≠ [] := by
    unfold GroupState.selected
    split_ifs
    · exact List.length_pos_iff.mp hpos
    · simp [List.getElem?_eq_getElem (Nat.mod_lt g.rr_idx.toNat hpos)]
  obtain ⟨c, hc⟩ := List.exists_mem_of_ne_nil _ hselected
  exact List.ne_nil_of_mem (mem_targets hmatch (AList.mem_entries_iff.mp hp)
    (AList.mem_entries_iff.mp hg) hc)

/-- The subscription that a target stands for: a competing group as a whole, or one member of an
independent subscriber's group. -/
def Target.slot (t : Target) : Bytes × Bytes × Option ClientId :=
  (t.pattern, t.group, if isUnique t.group then some t.client_id else none)

/-- A group gives a message to each of its subscriptions at most once. -/
theorem nodup_slots_selected (pattern group : Bytes) (g : GroupState) :
    ((GroupState.selected group g).map fun c => Target.slot ⟨pattern, group, c⟩).Nodup := by
  by_cases hunique : isUnique group = true
  · simp only [GroupState.selected, hunique, if_true, Target.slot]
    refine g.nodup.map fun a b hab => ?_
    simpa using hab
  · simp only [GroupState.selected, hunique]
    cases g.members[g.rr_idx.toNat % g.members.length]? with
    | none => simp
    | some c => simp

/-- Values that are listed by key and name their key are pairwise disjoint across keys. -/
theorem pairwise_disjoint_of_keys {ν β : Type*} {m : AList fun _ : Bytes => ν}
    {f : (Σ _ : Bytes, ν) → List β} (keyOf : β → Bytes)
    (hkey : ∀ e ∈ m.entries, ∀ x ∈ f e, keyOf x = e.1) :
    m.entries.Pairwise fun a b => List.Disjoint (f a) (f b) := by
  have hne : m.entries.Pairwise fun a b => a.1 ≠ b.1 := List.pairwise_map.mp m.nodupKeys
  refine hne.imp_of_mem fun ha hb hab x hxa hxb => hab ?_
  rw [← hkey _ ha x hxa, ← hkey _ hb x hxb]

/-- `route` gives a message to each subscription at most once. -/
theorem nodup_slots_targets (r : TopicRouter) (topic : Bytes) :
    ((r.targets topic).map Target.slot).Nodup := by
  -- Within one pattern: a client stands once in a group, and a group once in the pattern.
  have hgroups : ∀ (pattern : Bytes) (groups : Groups),
      ((groupTargets pattern groups).map Target.slot).Nodup := by
    intro pattern groups
    rw [groupTargets, List.map_flatMap, List.nodup_flatMap]
    refine ⟨fun e _ => ?_, pairwise_disjoint_of_keys (fun x => x.2.1) ?_⟩
    · rw [List.map_map]
      exact nodup_slots_selected pattern e.1 e.2
    · intro e _ x hx
      obtain ⟨t, ht, rfl⟩ := List.mem_map.mp hx
      obtain ⟨c, -, rfl⟩ := List.mem_map.mp ht
      rfl
  rw [targets, List.map_flatMap, List.nodup_flatMap]
  refine ⟨fun e _ => ?_, pairwise_disjoint_of_keys (fun x => x.1) ?_⟩
  · split_ifs
    · exact hgroups e.1 e.2
    · simp
  · intro e _ x hx
    split_ifs at hx with hmatch
    · obtain ⟨t, ht, rfl⟩ := List.mem_map.mp hx
      obtain ⟨g, -, hg⟩ := List.mem_flatMap.mp ht
      obtain ⟨c, -, rfl⟩ := List.mem_map.mp hg
      rfl
    · simp at hx

/-- A client without a group subscribes under a name that `route` takes for an independent one. -/
theorem isUnique_groupKey_nil (client_id : ClientId) : isUnique (groupKey [] client_id) = true := by
  simp [isUnique, groupKey]

end TopicRouter

end EventQueue.Broker
