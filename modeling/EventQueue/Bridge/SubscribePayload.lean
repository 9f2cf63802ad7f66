import EventQueue.Bridge.Wire

/-!
# What `decode_subscribe` accepts

A SUBSCRIBE payload is a topic and a group, each after its length. `decode_subscribe` checks the
payload's size before it reads a length and before it copies a topic or a group, so it never reads
outside the payload (`decodeSubscribeChecked_eq`). A topic that is cut off makes it give up; a group
that is cut off is left empty, which is what an independent subscriber's group is, and bytes after
the group are not looked at. So it accepts exactly the well-formed payloads only where the payload
is as long as its two lengths say (`accepts_wellFormed_iff`).
-/

namespace EventQueue.Bridge

open BigEndian (be ofBe length_be ofBe_be be_ofBe)
open Broker (ParsedSubscribe decodeSubscribe readLength)

/-! ## Reads of the payload -/

/-- `payload[offset]` and `payload[offset + 1]` as a length; `none` when one of them is outside the
payload. -/
def lengthAt (payload : Bytes) (offset : ℕ) : Option ℕ := do
  let high ← payload[offset]?
  let low ← payload[offset + 1]?
  return ((high.toUInt16 <<< 8) ||| low.toUInt16).toNat

/-- `assign(payload.data() + offset, len)`; `none` when a part of it is outside the payload. -/
def bytesAt (payload : Bytes) (offset len : ℕ) : Option Bytes :=
  if offset + len ≤ payload.length then some ((payload.drop offset).take len) else none

/-- `decode_subscribe` with each of its reads; `none` when one is outside the payload. -/
def decodeSubscribeChecked (payload : Bytes) : Option ParsedSubscribe :=
  if payload.length < 2 then some ⟨[], []⟩
  else do
    let topic_len ← lengthAt payload 0
    if payload.length < 2 + topic_len + 2 then return ⟨[], []⟩
    let topic ← bytesAt payload 2 topic_len
    let group_len ← lengthAt payload (2 + topic_len)
    let g_offset := 2 + topic_len + 2
    if g_offset + group_len ≤ payload.length then
      return ⟨topic, ← bytesAt payload g_offset group_len⟩
    else return ⟨topic, []⟩

variable {payload t g : Bytes} {offset len : ℕ}

/-- A length is read where both of its bytes are inside. -/
theorem lengthAt_eq (h : offset + 2 ≤ payload.length) :
    lengthAt payload offset = some (readLength payload offset).toNat := by
  have h₀ : offset < payload.length := by omega
  have h₁ : offset + 1 < payload.length := by omega
  simp [lengthAt, readLength, List.getElem?_eq_getElem h₀, List.getElem?_eq_getElem h₁,
    List.getD_eq_getElem?_getD]

/-- Bytes are copied where all of them are inside. -/
theorem bytesAt_eq (h : offset + len ≤ payload.length) :
    bytesAt payload offset len = some ((payload.drop offset).take len) := if_pos h

/-- No read of `decode_subscribe` is outside the payload. -/
theorem decodeSubscribeChecked_eq (payload : Bytes) :
    decodeSubscribeChecked payload = some (decodeSubscribe payload) := by
  unfold decodeSubscribeChecked decodeSubscribe
  split_ifs with hshort
  · rfl
  rw [lengthAt_eq (by omega)]
  generalize (readLength payload 0).toNat = topic_len
  simp only [Option.bind_eq_bind, Option.bind_some]
  by_cases htopic : payload.length < 2 + topic_len + 2
  · rw [if_pos htopic, if_pos htopic]
    rfl
  rw [if_neg htopic, if_neg htopic, bytesAt_eq (by omega), lengthAt_eq (by omega)]
  simp only [Option.bind_some]
  split_ifs with hgroup
  · rw [bytesAt_eq hgroup]
    rfl
  · rfl

/-! ## Well-formed payloads -/

/-- The payload of a SUBSCRIBE frame. -/
def subscribePayload (topic group : Bytes) : Bytes :=
  be 2 topic.length ++ topic ++ be 2 group.length ++ group

/-- A payload that carries a topic, which is not empty, and a group. -/
structure WellFormedSubscribe (payload topic group : Bytes) : Prop where
  /-- The topic is not empty. -/
  topic_ne : topic ≠ []
  /-- Its length fits its length field. -/
  topic_fits : topic.length < 2 ^ 16
  /-- So does the group's. -/
  group_fits : group.length < 2 ^ 16
  /-- There is nothing else in the payload. -/
  eq : payload = subscribePayload topic group

/-- The length that a payload declares for its topic. -/
def topicLen (payload : Bytes) : ℕ := ofBe (payload.take 2)

/-- The length that a payload declares for its group. -/
def groupLen (payload : Bytes) : ℕ := ofBe ((payload.drop (2 + topicLen payload)).take 2)

/-- `decode_subscribe` gets no topic out of the payload, or the payload is as long as the two
lengths in it say. -/
def LengthsAgree (payload : Bytes) : Prop :=
  topicLen payload = 0 ∨ payload.length < 4 + topicLen payload ∨
    payload.length = 4 + topicLen payload + groupLen payload

/-- `decode_subscribe` stays inside the payload, and it returns a topic and a group for which
`on_frame` registers a subscription exactly when the payload carries them. -/
def AcceptsWellFormed (payload : Bytes) : Prop :=
  decodeSubscribeChecked payload = some (decodeSubscribe payload) ∧
    ∀ topic group, decodeSubscribe payload = ⟨topic, group⟩ ∧ topic ≠ [] ↔
      WellFormedSubscribe payload topic group

/-- The lengths that a well-formed payload declares are those of its topic and its group. -/
theorem WellFormedSubscribe.lengths (h : WellFormedSubscribe payload t g) :
    topicLen payload = t.length ∧ groupLen payload = g.length ∧
      payload.length = 4 + t.length + g.length := by
  obtain ⟨-, ht, hg, rfl⟩ := h
  have htopic : topicLen (subscribePayload t g) = t.length := by
    unfold topicLen subscribePayload
    rw [List.append_assoc, List.append_assoc, List.take_left' (length_be _ _),
      ofBe_be (by simpa using ht)]
  have hlength : (subscribePayload t g).length = 4 + t.length + g.length := by
    simp [subscribePayload]
    omega
  refine ⟨htopic, ?_, hlength⟩
  unfold groupLen
  rw [htopic, subscribePayload, List.append_assoc, List.drop_left' (by simp),
    List.take_left' (length_be _ _), ofBe_be (by simpa using hg)]

/-- A well-formed payload is decoded. -/
theorem WellFormedSubscribe.decode (h : WellFormedSubscribe payload t g) :
    decodeSubscribe payload = ⟨t, g⟩ := by
  obtain ⟨-, ht, hg, rfl⟩ := h
  exact decodeSubscribe_eq ht hg 0

/-- What `decode_subscribe` returns where the topic and the length of the group are there. -/
theorem decodeSubscribe_of_le (h : 4 + topicLen payload ≤ payload.length) :
    decodeSubscribe payload = ⟨(payload.drop 2).take (topicLen payload),
      if 4 + topicLen payload + groupLen payload ≤ payload.length then
        (payload.drop (4 + topicLen payload)).take (groupLen payload)
      else []⟩ := by
  have htopic : (readLength payload 0).toNat = topicLen payload := readLength_eq (by omega)
  have hgroup : (readLength payload (2 + topicLen payload)).toNat = groupLen payload :=
    readLength_eq (by omega)
  have hoffset : 2 + topicLen payload + 2 = 4 + topicLen payload := by omega
  unfold decodeSubscribe
  rw [if_neg (by omega)]
  simp only [htopic, hgroup, hoffset]
  rw [if_neg (by omega)]

/-- It returns no topic where they are not. -/
theorem decodeSubscribe_of_lt (h : payload.length < 4 + topicLen payload) :
    decodeSubscribe payload = ⟨[], []⟩ := by
  unfold decodeSubscribe
  split_ifs with hshort
  · rfl
  · have htopic : (readLength payload 0).toNat = topicLen payload := readLength_eq (by omega)
    simp only [htopic]
    rw [if_pos (by omega)]

/-- A payload that is as long as its lengths say carries a topic and a group. -/
theorem wellFormed_of_length (htopic : topicLen payload ≠ 0)
    (hlength : payload.length = 4 + topicLen payload + groupLen payload) :
    WellFormedSubscribe payload ((payload.drop 2).take (topicLen payload))
      ((payload.drop (4 + topicLen payload)).take (groupLen payload)) := by
  have ht : ((payload.drop 2).take (topicLen payload)).length = topicLen payload := by
    simp; omega
  have hg : ((payload.drop (4 + topicLen payload)).take (groupLen payload)).length =
      groupLen payload := by
    simp; omega
  -- Each length field is the digits of the number that was read from it.
  have hfields : ∀ offset, offset + 2 ≤ payload.length →
      be 2 (ofBe ((payload.drop offset).take 2)) = (payload.drop offset).take 2 ∧
        ofBe ((payload.drop offset).take 2) < 2 ^ 16 := by
    intro offset hoffset
    have htwo : ((payload.drop offset).take 2).length = 2 := by simp; omega
    have hdigits := be_ofBe ((payload.drop offset).take 2)
    have hlt := BigEndian.ofBe_lt ((payload.drop offset).take 2)
    rw [htwo] at hdigits hlt
    exact ⟨hdigits, by simpa using hlt⟩
  obtain ⟨hfirst, hfirst_lt⟩ := hfields 0 (by omega)
  obtain ⟨hsecond, hsecond_lt⟩ := hfields (2 + topicLen payload) (by omega)
  rw [List.drop_zero] at hfirst hfirst_lt
  refine ⟨fun hnil => ?_, by rw [ht]; exact hfirst_lt, by rw [hg]; exact hsecond_lt, ?_⟩
  · rw [hnil] at ht
    exact htopic ht.symm
  · unfold subscribePayload
    rw [ht, hg]
    calc payload
        = payload.take 2 ++ ((payload.drop 2).take (topicLen payload) ++
            ((payload.drop (2 + topicLen payload)).take 2 ++
              payload.drop (4 + topicLen payload))) := by
          rw [show 4 + topicLen payload = 2 + topicLen payload + 2 by omega,
            ← List.drop_drop (i := 2) (j := 2 + topicLen payload), List.take_append_drop,
            ← List.drop_drop, List.take_append_drop, List.take_append_drop]
      _ = _ := by
          have hrest : (payload.drop (4 + topicLen payload)).take (groupLen payload) =
              payload.drop (4 + topicLen payload) := List.take_of_length_le (by simp; omega)
          rw [hrest, ← hfirst, ← hsecond]
          simp [topicLen, groupLen]

/-- `decode_subscribe` accepts exactly what is well formed, on the payloads that are as long as
their two lengths say and on those that it gets no topic out of, and on no others. -/
theorem accepts_wellFormed_iff (payload : Bytes) :
    AcceptsWellFormed payload ↔ LengthsAgree payload := by
  refine ⟨fun h => ?_, fun h => ⟨decodeSubscribeChecked_eq payload, fun t g => ?_⟩⟩
  · by_contra hnot
    simp only [LengthsAgree, not_or, not_lt] at hnot
    obtain ⟨htopic, hlong, hlength⟩ := hnot
    -- A topic is returned, although the payload does not end where its group does.
    have hne : (payload.drop 2).take (topicLen payload) ≠ [] := by
      intro hnil
      have := congrArg List.length hnil
      simp at this
      omega
    obtain ⟨ht, hg, hall⟩ := ((h.2 _ _).mp ⟨decodeSubscribe_of_le hlong, hne⟩).lengths
    omega
  · constructor
    · rintro ⟨hdecode, hne⟩
      obtain hzero | hshort | hlength := h
      · by_cases hlong : 4 + topicLen payload ≤ payload.length
        · rw [decodeSubscribe_of_le hlong, hzero, List.take_zero] at hdecode
          exact absurd (congrArg ParsedSubscribe.topic hdecode).symm hne
        · rw [decodeSubscribe_of_lt (by omega)] at hdecode
          exact absurd (congrArg ParsedSubscribe.topic hdecode).symm hne
      · rw [decodeSubscribe_of_lt hshort] at hdecode
        exact absurd (congrArg ParsedSubscribe.topic hdecode).symm hne
      · rw [decodeSubscribe_of_le (by omega), if_pos (by omega)] at hdecode
        obtain ⟨rfl, rfl⟩ := ParsedSubscribe.mk.inj hdecode
        refine wellFormed_of_length (fun hzero => ?_) hlength
        rw [hzero, List.take_zero] at hne
        exact hne rfl
    · intro hwell
      exact ⟨hwell.decode, hwell.topic_ne⟩

/-- Topic `a` and a group that is cut off after the first of its two bytes: the topic is returned
with the empty group. -/
theorem truncated_group_accepted :
    decodeSubscribe [0, 1, 0x61, 0, 2, 0x67] = ⟨[0x61], []⟩ ∧
      ¬AcceptsWellFormed [0, 1, 0x61, 0, 2, 0x67] := by
  refine ⟨by decide, fun h => ?_⟩
  obtain ⟨-, -, -, heq⟩ := (h.2 [0x61] []).mp ⟨by decide, by decide⟩
  revert heq
  decide

end EventQueue.Bridge
