import EventQueue.Broker.TopicRouter
import EventQueue.Gateway.Protocol

/-!
# The two matchers

`TopicRouter::matches` takes what stands before the first `*` of a pattern, wherever it is, as a
prefix; `topicMatches` knows the patterns `*` and those that end in `.*`. What the gateway matches,
the broker matches (`brokerMatches_of_topicMatches`). The converse holds for the patterns whose only
`*` is the whole pattern or stands after a `.` at the end (`forwarded_iff`); for any other pattern
with a `*`, the part before it is a topic that the broker routes and the gateway drops.
-/

namespace EventQueue.Bridge

open Broker.TopicRouter (topicMatches)

/-- The code unit of `*`. -/
def star : UInt16 := 0x2A

/-- What the broker matches, when it gets the encodings of a pattern and a topic. -/
def brokerMatches (pattern topic : JsString) : Bool := topicMatches pattern.toUtf8 topic.toUtf8

variable {pattern topic pre post : JsString}

/-- The encoding of a pattern around a `*`. -/
theorem toUtf8_split (pre post : JsString) :
    (pre ++ star :: post).toUtf8 = pre.toUtf8 ++ 0x2A :: post.toUtf8 :=
  JsString.toUtf8_append_cons (by decide) pre post

/-- A pattern without a `*` matches, for the broker, itself. -/
theorem brokerMatches_of_not_mem (h : star ∉ pattern) :
    brokerMatches pattern topic = true ↔ pattern.toUtf8 = topic.toUtf8 := by
  have hbyte : (0x2A : UInt8) ∉ pattern.toUtf8 := fun hmem =>
    h (JsString.mem_of_mem_toUtf8 (by decide) hmem)
  unfold brokerMatches topicMatches
  rw [List.idxOf?_eq_none_iff.mpr hbyte]
  simp

/-- A pattern with a `*` matches, for the broker, what starts with the part before the first. -/
theorem brokerMatches_split (hpre : star ∉ pre) :
    brokerMatches (pre ++ star :: post) topic = true ↔
      (pre ++ star :: post).toUtf8 = topic.toUtf8 ∨ pre.toUtf8 <+: topic.toUtf8 := by
  have hbyte : (0x2A : UInt8) ∉ pre.toUtf8 := fun hmem =>
    hpre (JsString.mem_of_mem_toUtf8 (by decide) hmem)
  have hidx : (pre ++ star :: post).toUtf8.idxOf? 0x2A = some pre.toUtf8.length := by
    rw [toUtf8_split, List.idxOf?_eq_some_iff]
    refine ⟨by simp, by simp, fun j hj => ?_⟩
    rw [List.getElem_append_left hj]
    exact fun heq => hbyte (heq ▸ List.getElem_mem hj)
  have htake : (pre ++ star :: post).toUtf8.take pre.toUtf8.length = pre.toUtf8 := by
    rw [toUtf8_split, List.take_left]
  unfold brokerMatches topicMatches
  rw [hidx]
  dsimp only
  rw [htake, List.prefix_iff_eq_take, eq_comm (a := pre.toUtf8)]
  cases hnil : pre.toUtf8 with
  | nil => simp
  | cons b bs => simp

/-- What the gateway matches. -/
theorem topicMatches_iff : Gateway.topicMatches pattern topic = true ↔
    pattern = topic ∨ pattern = [star] ∨
      JsString.ofString ".*" <:+ pattern ∧ pattern.dropLast <+: topic := by
  have hstar : JsString.ofString "*" = [star] := by decide
  unfold Gateway.topicMatches
  rw [hstar]
  split_ifs with heq hone hsuffix
  · simp [heq]
  · simp [hone]
  · have := List.isSuffixOf_iff_suffix.mp hsuffix
    simp [heq, hone, this, List.isPrefixOf_iff_prefix]
  · have hnot : ¬ JsString.ofString ".*" <:+ pattern := fun h =>
      hsuffix (List.isSuffixOf_iff_suffix.mpr h)
    simp [heq, hone, hnot]

/-- A pattern that ends in `.*` is a string that ends in `.`, and then a `*`. -/
theorem exists_of_suffix (h : JsString.ofString ".*" <:+ pattern) :
    ∃ stem, pattern = stem ++ [0x2E, star] ∧ pattern.dropLast = stem ++ [0x2E] := by
  obtain ⟨stem, rfl⟩ := h
  have hdot : JsString.ofString ".*" = [0x2E, star] := by decide
  refine ⟨stem, by rw [hdot], ?_⟩
  rw [hdot, List.dropLast_append_of_ne_nil (by simp)]
  rfl

/-- What the gateway matches, the broker matches. -/
theorem brokerMatches_of_topicMatches (h : Gateway.topicMatches pattern topic = true) :
    brokerMatches pattern topic = true := by
  obtain rfl | rfl | ⟨hsuffix, hstarts⟩ := topicMatches_iff.mp h
  · simp [brokerMatches, topicMatches]
  · have hone : brokerMatches ([] ++ star :: []) topic = true :=
      (brokerMatches_split (by simp)).mpr (.inr List.nil_prefix)
    exact hone
  · obtain ⟨stem, rfl, hlast⟩ := exists_of_suffix hsuffix
    rw [hlast] at hstarts
    obtain ⟨rest, rfl⟩ := hstarts
    obtain ⟨pre, post, hsplit, hpre⟩ :=
      List.eq_append_cons_of_mem (show star ∈ stem ++ [0x2E, star] by simp)
    rw [hsplit, brokerMatches_split hpre]
    refine .inr ?_
    -- The part before the first star goes up to the dot, or to a star in the topic itself.
    cases post using List.reverseRecOn with
    | nil =>
      have hends : (stem ++ [0x2E]) ++ [star] = pre ++ [star] := by rw [← hsplit]; simp
      obtain ⟨rfl, -⟩ := List.append_inj' hends rfl
      rw [List.append_assoc, List.singleton_append, JsString.toUtf8_append_cons (by decide),
        JsString.toUtf8_append_cons (by decide)]
      exact ⟨JsString.toUtf8 rest, by simp [JsString.toUtf8, JsString.scalars]⟩
    | append_singleton post last =>
      have hends : (stem ++ [0x2E]) ++ [star] = (pre ++ star :: post) ++ [last] := by
        simpa using hsplit
      obtain ⟨hstem, -⟩ := List.append_inj' hends rfl
      rw [hstem, List.append_assoc, List.cons_append, toUtf8_split]
      exact List.prefix_append _ _

/-- A pattern whose only `*`, if it has one, is the whole pattern or stands after a `.` at the
end. -/
def Forwarded (pattern : JsString) : Prop :=
  star ∉ pattern ∨ pattern = [star] ∨
    JsString.ofString ".*" <:+ pattern ∧ star ∉ pattern.dropLast

instance (pattern : JsString) : Decidable (Forwarded pattern) :=
  inferInstanceAs (Decidable (_ ∨ _ ∨ _ ∧ _))

/-- Strings that are encoded alike are the same. -/
theorem eq_of_toUtf8_eq (hpattern : pattern.isWellFormed = true)
    (htopic : topic.isWellFormed = true)
    (h : pattern.toUtf8 = topic.toUtf8) : pattern = topic := by
  rw [← JsString.ofUtf8_toUtf8 hpattern, h, JsString.ofUtf8_toUtf8 htopic]

/-- What the broker routes for a pattern, the gateway forwards for it: for every topic, if and only
if the only `*` of the pattern, if it has one, is the whole pattern or stands after a `.` at the
end. -/
theorem forwarded_iff (hpattern : pattern.isWellFormed = true) :
    (∀ topic : JsString, topic.isWellFormed = true → brokerMatches pattern topic = true →
      Gateway.topicMatches pattern topic = true) ↔ Forwarded pattern := by
  constructor
  · intro h
    by_cases hmem : star ∈ pattern
    · obtain ⟨pre, post, rfl, hpre⟩ := List.eq_append_cons_of_mem hmem
      have hwell := JsString.isWellFormed_of_append_cons (by decide) hpattern
      -- The part before the star is a topic that the broker routes.
      have hforward := h pre hwell ((brokerMatches_split hpre).mpr (.inr (List.prefix_refl _)))
      obtain heq | hone | ⟨hsuffix, hstarts⟩ := topicMatches_iff.mp hforward
      · exact absurd (congrArg List.length heq) (by simp)
      · exact .inr (.inl hone)
      · have hlen := hstarts.length_le
        have hpost : post = [] := by
          rw [List.length_dropLast, List.length_append, List.length_cons] at hlen
          exact List.length_eq_zero_iff.mp (by omega)
        subst hpost
        exact .inr (.inr ⟨hsuffix, by rwa [List.dropLast_concat]⟩)
    · exact .inl hmem
  · rintro (hnot | rfl | ⟨hsuffix, hlast⟩) topic htopic hmatch
    · have heq := (brokerMatches_of_not_mem hnot).mp hmatch
      exact topicMatches_iff.mpr (.inl (eq_of_toUtf8_eq hpattern htopic heq))
    · exact topicMatches_iff.mpr (.inr (.inl rfl))
    · obtain ⟨stem, rfl, hstem⟩ := exists_of_suffix hsuffix
      rw [hstem] at hlast
      have hsplit : stem ++ [0x2E, star] = (stem ++ [0x2E]) ++ star :: [] := by simp
      have hwell : (stem ++ [0x2E]).isWellFormed = true :=
        JsString.isWellFormed_of_append_cons (u := star) (t := []) (by decide) (hsplit ▸ hpattern)
      rw [hsplit, brokerMatches_split hlast, ← hsplit] at hmatch
      obtain heq | hstarts := hmatch
      · exact topicMatches_iff.mpr (.inl (eq_of_toUtf8_eq hpattern htopic heq))
      · refine topicMatches_iff.mpr (.inr (.inr ⟨hsuffix, ?_⟩))
        rw [hstem]
        exact JsString.prefix_of_toUtf8 hwell htopic hstarts

/-- The broker routes `order.created` for the pattern `order*`, and the gateway drops it. -/
theorem undotted_star_dropped :
    ¬ ∀ pattern topic : JsString, pattern.isWellFormed = true → topic.isWellFormed = true →
      brokerMatches pattern topic = true → Gateway.topicMatches pattern topic = true := by
  intro h
  have hforward := h (JsString.ofString "order*") (JsString.ofString "order.created")
    (by decide +kernel) (by decide +kernel) (by decide +kernel)
  exact absurd hforward (by decide +kernel)

/-- For the pattern `order.*`, the broker routes `order.created` and the gateway forwards it. -/
theorem forwarded_order :
    brokerMatches (JsString.ofString "order.*") (JsString.ofString "order.created") = true ∧
      Gateway.topicMatches (JsString.ofString "order.*") (JsString.ofString "order.created") =
        true := by
  have hroutes : brokerMatches (JsString.ofString "order.*") (JsString.ofString "order.created") =
      true := by decide +kernel
  have hpattern : (JsString.ofString "order.*").isWellFormed = true := by decide +kernel
  refine ⟨hroutes, (forwarded_iff hpattern).mpr ?_ _ ?_ hroutes⟩
  · decide +kernel
  · decide +kernel

end EventQueue.Bridge
