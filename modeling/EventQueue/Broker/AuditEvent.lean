import EventQueue.Broker.Main
import EventQueue.Lib.Json

/-!
# What the audit event of a dead letter says

The DLQ logger puts the body of an audit event together from pieces of text, and the topic of the
dead letter is one of them. Nothing escapes it. So the event is JSON that tells the topic only where
every character of the topic stands for itself in a JSON string (`audit_faithful_iff`). With a
quotation mark or a backslash in it, the topic ends early, or it is read as another one, or the
event is no JSON at all.
-/

namespace EventQueue.Broker

open JsString (ofUtf8 toUtf8 isWellFormed ofAscii toUtf8_append isWellFormed_append toUtf8_ofAscii
  isWellFormed_ofAscii ofUtf8_toUtf8)
open Json (quotationMark nameSeparator valueSeparator beginObject endObject)
open Transition (exec)

/-! ## Texts -/

/-- Bytes that are the UTF-8 encoding of a JSON text. -/
def JsonBytes (bs : Bytes) (v : Json) : Prop :=
  ∃ s, isWellFormed s = true ∧ bs = toUtf8 s ∧ Json.Text s v

/-- The value that the audit event is to show for a body: an object without members for none. -/
def BodyValue (body : Bytes) (v : Json) : Prop :=
  body = [] ∧ v = .object [] ∨ JsonBytes body v

/-- The name of the member for the identifier. -/
def originalId : JsString := JsString.ofString "original_id"

/-- The name of the member for the topic. -/
def originalTopic : JsString := JsString.ofString "original_topic"

/-- The name of the member for the body. -/
def originalBody : JsString := JsString.ofString "original_body"

/-- The topic prefix of a dead letter, as a string. -/
def dlqText : JsString := ofAscii dlqPrefix

/-- The audit event is JSON: an object with the three members and no others, in which the topic is
this string, and the body is this value. -/
def IsAuditOf (body : Bytes) (topic : JsString) (v : Json) : Prop :=
  ∃ ms, JsonBytes body (.object ms) ∧
    (ms.map Prod.fst).Perm [originalId, originalTopic, originalBody] ∧
    (originalTopic, .string topic) ∈ ms ∧ (originalBody, v) ∈ ms

/-- Every character of a text stands for itself in a JSON string: none is a quotation mark, a
backslash, or a control character. -/
def PlainText (t : JsString) : Prop := ∀ u ∈ t, Json.unescaped u = true

/-! ## The event as a text -/

/-- The digits of an identifier. -/
def idText (msg_id : UInt64) : JsString := ofAscii (decimal msg_id.toNat)

/-- What follows the topic and its quotation mark. -/
def auditRest (body : JsString) : JsString :=
  valueSeparator :: 0x20 :: quotationMark :: (originalBody ++
    quotationMark :: nameSeparator :: 0x20 :: (body ++ [endObject]))

/-- What follows the identifier and its quotation mark. -/
def auditTail (topic body : JsString) : JsString :=
  valueSeparator :: 0x20 :: quotationMark :: (originalTopic ++
    quotationMark :: nameSeparator :: 0x20 :: quotationMark ::
      (topic ++ quotationMark :: auditRest body))

/-- The text of an audit event. -/
def auditText (msg_id : UInt64) (topic body : JsString) : JsString :=
  beginObject :: quotationMark :: (originalId ++
    quotationMark :: nameSeparator :: 0x20 :: quotationMark ::
      (idText msg_id ++ quotationMark :: auditTail topic body))

/-- The bytes of a decimal number are digits. -/
theorem mem_decimal {n : ℕ} {b : UInt8} (h : b ∈ decimal n) : 0x30 ≤ b.toNat ∧ b.toNat ≤ 0x39 := by
  have hneg : ¬((n : ℤ) < 0) := by omega
  rw [decimal, if_neg hneg, List.nil_append] at h
  obtain ⟨c, hc, rfl⟩ := List.mem_map.1 h
  have hdigit := Nat.isDigit_of_mem_toDigits (by decide) (by decide) hc
  simp only [Char.isDigit, Bool.and_eq_true, decide_eq_true_eq] at hdigit
  have hle : c.toNat ≤ 0x39 := hdigit.2
  rw [JsString.toNat_toUInt8_of_lt (by omega)]
  exact ⟨hdigit.1, hle⟩

/-- The digits of an identifier stand for themselves. -/
theorem plainText_idText (msg_id : UInt64) : PlainText (idText msg_id) := by
  intro u hu
  obtain ⟨b, hb, rfl⟩ := List.mem_map.1 hu
  obtain ⟨hlow, hhigh⟩ := mem_decimal hb
  have hunit : b.toUInt16.toNat = b.toNat := UInt8.toNat_toUInt16 b
  have hquote : b.toUInt16 ≠ 0x22 := by
    intro h
    have := congrArg UInt16.toNat h
    simp at this
    omega
  have hescape : b.toUInt16 ≠ 0x5C := by
    intro h
    have := congrArg UInt16.toNat h
    simp at this
    omega
  have hcontrol : (0x20 : UInt16) ≤ b.toUInt16 := by
    rw [UInt16.le_iff_toNat_le, hunit]
    exact le_trans (by decide) hlow
  simp [Json.unescaped, hquote, hescape, hcontrol]

/-- The pieces of the source, which the text consists of. -/
theorem auditText_eq (msg_id : UInt64) (topic body : JsString) :
    auditText msg_id topic body =
      ofAscii (ascii "\x7b\"original_id\": \"") ++ (idText msg_id ++
        (ofAscii (ascii "\", \"original_topic\": \"") ++ (topic ++
          (ofAscii (ascii "\"") ++ (ofAscii (ascii ", \"original_body\": ") ++ (body ++
            ofAscii (ascii "\x7d"))))))) := by
  have hid : ofAscii (ascii "\x7b\"original_id\": \"") =
      beginObject :: quotationMark ::
        (originalId ++ [quotationMark, nameSeparator, 0x20, quotationMark]) := by decide
  have htopic : ofAscii (ascii "\", \"original_topic\": \"") =
      quotationMark :: valueSeparator :: 0x20 :: quotationMark ::
        (originalTopic ++ [quotationMark, nameSeparator, 0x20, quotationMark]) := by decide
  have hbody : ofAscii (ascii ", \"original_body\": ") =
      valueSeparator :: 0x20 :: quotationMark ::
        (originalBody ++ [quotationMark, nameSeparator, 0x20]) := by decide
  have hquote : ofAscii (ascii "\"") = [quotationMark] := by decide
  have hend : ofAscii (ascii "\x7d") = [endObject] := by decide
  rw [hid, htopic, hbody, hquote, hend]
  simp [auditText, auditTail, auditRest]

/-- The audit event's body is the encoding of its text, which is well formed. -/
theorem auditBody_eq {m : Message} {topic body : JsString} (ht : isWellFormed topic = true)
    (hb : isWellFormed body = true) (htopic : m.topic = toUtf8 topic)
    (hbody : (if m.body.isEmpty then ascii "\x7b\x7d" else m.body) = toUtf8 body) :
    isWellFormed (auditText m.msg_id topic body) = true ∧
      State.auditBody m = toUtf8 (auditText m.msg_id topic body) := by
  have hid : JsString.isAscii (decimal m.msg_id.toNat) = true := by
    refine List.all_eq_true.2 fun b hb => decide_eq_true ?_
    have := mem_decimal hb
    omega
  have hidText := isWellFormed_ofAscii (decimal m.msg_id.toNat)
  rw [auditText_eq]
  constructor
  · simp only [isWellFormed_append, isWellFormed_ofAscii, idText, ht, hb]
  · simp only [toUtf8_append, isWellFormed_ofAscii, idText, ht, hb, toUtf8_ofAscii hid]
    rw [toUtf8_ofAscii (by decide), toUtf8_ofAscii (by decide),
      toUtf8_ofAscii (by decide), toUtf8_ofAscii (by decide),
      toUtf8_ofAscii (by decide), ← htopic, ← hbody]
    simp [State.auditBody]

/-! ## The event is parsed -/

/-- A text is plain when the test of each code unit says so. -/
theorem plainText_of_all {t : JsString} (h : t.all Json.unescaped = true) : PlainText t :=
  List.all_eq_true.1 h

/-- The names of the members stand for themselves. -/
theorem plainText_names : PlainText originalId ∧ PlainText originalTopic ∧
    PlainText originalBody :=
  ⟨plainText_of_all (by decide), plainText_of_all (by decide),
    plainText_of_all (by decide)⟩

/-- A space before a quotation mark is skipped. -/
theorem skipWs_space (t : JsString) :
    Json.skipWs (0x20 :: quotationMark :: t) = quotationMark :: t := rfl

/-- A member whose value is a string, as the source writes it. -/
theorem readMember_string {n : ℕ} {k : JsString} (hk : PlainText k) (t : JsString) :
    Json.readMember (Json.readValue (n + 1))
        (quotationMark :: (k ++ quotationMark :: nameSeparator :: 0x20 :: quotationMark :: t)) =
      (Json.readChars t).map fun p => ((k, .string p.1), p.2) := by
  rw [Json.readMember_of_unescaped hk, skipWs_space, Json.readValue_quotationMark, Option.map_map]
  rfl

/-- The first two members of an event that is parsed: the second is what the reader of the topic has
found, and a comma or the end of the object comes after it. -/
theorem readChars_of_parse {msg_id : UInt64} {topic body : JsString} {ms : List (JsString × Json)}
    (h : Json.parse (auditText msg_id topic body) = some (.object ms)) :
    ∃ s r u r' x ms', Json.readChars (topic ++ quotationMark :: auditRest body) = some (s, r) ∧
      Json.skipWs r = u :: r' ∧ (u = endObject ∨ u = valueSeparator) ∧
      ms = (originalId, x) :: (originalTopic, .string s) :: ms' := by
  obtain ⟨n, hn⟩ : ∃ n, (auditText msg_id topic body).length = n + 3 :=
    ⟨_, (Nat.sub_add_cancel (by simp [auditText]; omega)).symm⟩
  have hskip : ∀ u t, Json.isWs u = false → Json.skipWs (u :: t) = u :: t := fun u t hu =>
    List.dropWhile_cons_of_neg (by simp [hu])
  have hid := Json.readChars_complete (Json.Chars.of_unescaped (plainText_idText msg_id))
    (auditTail topic body)
  -- The first member.
  have hfirst : Json.readMember (Json.readValue (n + 3)) (Json.skipWs (quotationMark ::
      (originalId ++ quotationMark :: nameSeparator :: 0x20 :: quotationMark ::
        (idText msg_id ++ quotationMark :: auditTail topic body)))) =
      some ((originalId, .string (idText msg_id)), auditTail topic body) := by
    rw [hskip _ _ (by decide), readMember_string plainText_names.1, hid]
    rfl
  -- The second member, as far as it is read.
  have hsecond : Json.readMember (Json.readValue (n + 3)) (Json.skipWs (0x20 :: quotationMark ::
      (originalTopic ++ quotationMark :: nameSeparator :: 0x20 :: quotationMark ::
        (topic ++ quotationMark :: auditRest body)))) =
      (Json.readChars (topic ++ quotationMark :: auditRest body)).map fun p =>
        ((originalTopic, .string p.1), p.2) := by
    rw [skipWs_space, readMember_string plainText_names.2.1]
  obtain ⟨rest, hread⟩ := Json.exists_readValue h
  rw [hn, auditText, hskip _ _ (by decide), Json.readValue_beginObject] at hread
  obtain ⟨⟨ms₀, _⟩, hlist, heq⟩ := Option.map_eq_some_iff.1 hread
  obtain ⟨hobject, -⟩ := Prod.mk.inj heq
  have hms₀ : ms₀ = ms := Json.object.inj hobject
  rw [hms₀, Json.readList, hskip _ _ (by decide)] at hlist
  simp only [if_neg (show ¬quotationMark = endObject by decide)] at hlist
  rw [Json.readSepBy_comma (by decide) hfirst] at hlist
  obtain ⟨⟨ms', _⟩, hrest, heq⟩ := Option.map_eq_some_iff.1 hlist
  obtain ⟨rfl, -⟩ := Prod.mk.inj heq
  simp only [Json.readSepBy, hsecond, Option.bind_map, Option.bind_eq_some_iff] at hrest
  obtain ⟨⟨s, r⟩, hchars, hrest⟩ := hrest
  simp only [Function.comp] at hrest
  refine ⟨s, r, ?_⟩
  cases hr : Json.skipWs r with
  | nil => simp [hr] at hrest
  | cons u r' =>
    simp only [hr] at hrest
    split_ifs at hrest with hclose hcomma
    · obtain ⟨rfl, -⟩ := Prod.mk.inj (Option.some.inj hrest)
      exact ⟨u, r', _, [], hchars, rfl, .inl hclose, rfl⟩
    · obtain ⟨⟨ms₁, _⟩, -, heq⟩ := Option.map_eq_some_iff.1 hrest
      obtain ⟨rfl, -⟩ := Prod.mk.inj heq
      exact ⟨u, r', _, ms₁, hchars, rfl, .inr hcomma, rfl⟩

/-- A topic that an event is parsed with, and as itself, is plain. -/
theorem plainText_of_parse {msg_id : UInt64} {topic body : JsString}
    {x : Json} {ms : List (JsString × Json)}
    (h : Json.parse (auditText msg_id topic body) =
      some (.object ((originalId, x) :: (originalTopic, .string topic) :: ms))) :
    PlainText topic := by
  obtain ⟨s, r, u, r', x', ms', hchars, hr, hu, heq⟩ := readChars_of_parse h
  have hs : topic = s := by
    simpa using (List.cons.inj (List.cons.inj heq).2).1
  obtain ⟨hplain, -⟩ | hlt | ⟨c, hc⟩ := Json.readChars_append hchars
  · exact hplain
  · exact absurd hlt (by rw [hs]; exact Nat.lt_irrefl _)
  · -- The topic's quotation mark is escaped, and that of the next name closes the string.
    have hnext : Json.readChars (auditRest body) = some ([valueSeparator, 0x20], originalBody ++
        quotationMark :: nameSeparator :: 0x20 :: (body ++ [endObject])) := by
      rw [auditRest, Json.readChars_unescaped (by decide), Json.readChars_unescaped (by decide),
        Json.readChars_quotationMark]
      rfl
    rw [hnext] at hc
    obtain ⟨-, rfl⟩ := Prod.mk.inj (Option.some.inj hc)
    have hhead : u = 0x6F := (List.cons.inj hr).1.symm
    obtain rfl | rfl := hu
    · exact absurd hhead (by decide)
    · exact absurd hhead (by decide)

/-- An event with a plain topic is the text of its three members. -/
theorem text_auditText {msg_id : UInt64} {topic body : JsString} {v : Json}
    (htopic : PlainText topic) (hbody : Json.Text body v) :
    Json.Text (auditText msg_id topic body) (.object [(originalId, .string (idText msg_id)),
      (originalTopic, .string topic), (originalBody, v)]) := by
  have hnil : Json.Ws [] := fun u hu => absurd hu List.not_mem_nil
  have hspace : Json.Ws [0x20] := by
    intro u hu
    rw [List.mem_singleton.1 hu]
    rfl
  have hstring {t : JsString} (ht : PlainText t) :
      Json.Value (quotationMark :: t ++ [quotationMark]) (.string t) :=
    .string t t (.of_unescaped ht)
  obtain ⟨w, t, w', rfl, hw, hw', hv⟩ := hbody
  have hlast : Json.SepBy (Json.Member Json.Value) _ _ := .one [0x20] _ w' _ hspace
    (.mk originalBody originalBody [] (0x20 :: w) t v (.of_unescaped plainText_names.2.2) hnil
      (List.forall_mem_cons.2 ⟨rfl, hw⟩) hv) hw'
  have hmiddle : Json.SepBy (Json.Member Json.Value) _ _ := .more [0x20] _ [] _ _ _ hspace
    (.mk originalTopic originalTopic [] [0x20] _ _ (.of_unescaped plainText_names.2.1) hnil
      hspace (hstring htopic)) hnil hlast
  have hfirst : Json.SepBy (Json.Member Json.Value) _ _ := .more [] _ [] _ _ _ hnil
    (.mk originalId originalId [] [0x20] _ _ (.of_unescaped plainText_names.1) hnil
      hspace (hstring (plainText_idText msg_id))) hnil hmiddle
  refine ⟨[], _, [], ?_, hnil, hnil, .object _ _ hfirst⟩
  simp [auditText, auditTail, auditRest]

/-! ## Faithful events -/

/-- What the logger puts in for a body is the encoding of a text of the value to show. -/
theorem BodyValue.exists_text {body : Bytes} {v : Json} (h : BodyValue body v) :
    ∃ b, isWellFormed b = true ∧ (if body.isEmpty then ascii "\x7b\x7d" else body) = toUtf8 b ∧
      Json.Text b v := by
  have hnil : Json.Ws [] := fun u hu => absurd hu List.not_mem_nil
  obtain ⟨rfl, rfl⟩ | ⟨s, hs, rfl, htext⟩ := h
  · refine ⟨ofAscii (ascii "\x7b\x7d"), isWellFormed_ofAscii _,
      (toUtf8_ofAscii (by decide)).symm, [], [beginObject, endObject], [], ?_, hnil, hnil,
      .emptyObject [] hnil⟩
    decide
  · refine ⟨s, hs, if_neg ?_, htext⟩
    obtain ⟨w, t, w', rfl, -, -, hv⟩ := htext
    obtain ⟨u, t', rfl, -⟩ := hv.exists_cons
    simpa using JsString.toUtf8_ne_nil (s := w ++ u :: t' ++ w') (by simp)

theorem plainText_dlqText_append {t : JsString} : PlainText (dlqText ++ t) ↔ PlainText t := by
  have hdlq : PlainText dlqText := plainText_of_all (by decide)
  exact ⟨fun h u hu => h u (List.mem_append_right _ hu),
    fun h => List.forall_mem_append.2 ⟨hdlq, h⟩⟩

/-- The event for a topic and a body is faithful exactly when the topic is plain. -/
theorem isAuditOf_iff {m : Message} {topic : JsString} {v : Json} (ht : isWellFormed topic = true)
    (htopic : m.topic = toUtf8 topic) (hbody : BodyValue m.body v) :
    IsAuditOf (State.auditBody m) topic v ↔ PlainText topic := by
  obtain ⟨body, hb, hbytes, htext⟩ := hbody.exists_text
  obtain ⟨hwell, hbody⟩ := auditBody_eq ht hb htopic hbytes
  constructor
  · rintro ⟨ms, ⟨s, hs, hutf8, hobject⟩, hperm, hmem, -⟩
    have hs' : s = auditText m.msg_id topic body := by
      rw [← ofUtf8_toUtf8 hs, ← hutf8, hbody, ofUtf8_toUtf8 hwell]
    rw [hs'] at hobject
    have hparse := Json.parse_of_text hobject
    obtain ⟨s, r, u, r', x, ms', -, -, -, rfl⟩ := readChars_of_parse hparse
    -- No two members have one name, so that the topic is the second member.
    have hnodup := hperm.nodup_iff.2 (by decide)
    simp only [List.map_cons, List.nodup_cons] at hnodup
    have hne : originalTopic ≠ originalId := by decide
    obtain heq | hmem := List.mem_cons.1 hmem
    · exact absurd (Prod.mk.inj heq).1 hne
    obtain heq | hmem := List.mem_cons.1 hmem
    · rw [← heq] at hparse
      exact plainText_of_parse hparse
    · exact absurd (List.mem_map_of_mem hmem) hnodup.2.1
  · intro hplain
    exact ⟨_, ⟨_, hwell, hbody, text_auditText hplain htext⟩, .refl _, by simp, by simp⟩

/-- The DLQ logger's audit event of every dead letter, with a topic and a body that are text, is
faithful exactly when the topic has neither a quotation mark nor a backslash nor a control character
in it. -/
theorem audit_faithful_iff (cfg : Config) (s : State) (max_retries : ℤ) (entry : InFlight)
    (m : Message) (topic : JsString) (v : Json)
    (hdead : AckEngine.requeueOrDlq max_retries entry = .deadLetter m)
    (hlogger : s.logger = .audit m) (ht : isWellFormed topic = true)
    (htopic : entry.msg.topic = toUtf8 topic) (hbody : BodyValue entry.msg.body v) :
    ∃ s' sys, s.step cfg .log = some s' ∧ s'.logger = .auditAppend sys ∧
      sys.topic = sysDlqTopic ∧ m.topic = toUtf8 (dlqText ++ topic) ∧
      (IsAuditOf sys.body (dlqText ++ topic) v ↔ PlainText topic) := by
  have hm : m = entry.dlqMsg := by
    unfold AckEngine.requeueOrDlq at hdead
    split_ifs at hdead
    exact (AckEngine.Outcome.deadLetter.inj hdead).symm
  have hdlq := isWellFormed_ofAscii dlqPrefix
  have htext : m.topic = toUtf8 (dlqText ++ topic) := by
    rw [dlqText, toUtf8_append hdlq, toUtf8_ofAscii (by decide), ← htopic, hm]
    rfl
  have hstep : s.step cfg .log = s.logStep := rfl
  rw [hstep, State.logStep, hlogger]
  refine ⟨_, _, rfl, rfl, rfl, htext, ?_⟩
  rw [← plainText_dlqText_append]
  refine isAuditOf_iff ?_ htext (hm ▸ hbody)
  rw [dlqText, isWellFormed_append hdlq, ht]

/-- The dead letter of a message on the topic `t`, and the logger's next step. -/
theorem audit_faithful_plain :
    let entry : InFlight := ⟨⟨1, ascii "t", ascii "null", 0, 0⟩, 5, 5000, 0⟩
    ∃ s' sys, State.step ⟨4, 0, 5000⟩ { State.init ⟨4, 0, 5000⟩ with logger := .audit entry.dlqMsg }
        .log = some s' ∧
      s'.logger = .auditAppend sys ∧ IsAuditOf sys.body (JsString.ofString "$DLQ.t") .null := by
  intro entry
  have hnil : Json.Ws [] := fun u hu => absurd hu List.not_mem_nil
  have hbody : BodyValue entry.msg.body .null :=
    .inr ⟨JsString.ofString "null", by decide, by decide, [], _, [], rfl, hnil,
      hnil, .literalNull⟩
  obtain ⟨s', sys, hstep, hlogger, -, -, hiff⟩ := audit_faithful_iff ⟨4, 0, 5000⟩
    { State.init ⟨4, 0, 5000⟩ with logger := .audit entry.dlqMsg } 0 entry entry.dlqMsg
    (JsString.ofString "t") .null rfl rfl (by decide) (by decide) hbody
  have hplain : PlainText (JsString.ofString "t") := plainText_of_all (by decide)
  have htopic : dlqText ++ JsString.ofString "t" = JsString.ofString "$DLQ.t" := by decide
  exact ⟨s', sys, hstep, hlogger, htopic ▸ hiff.2 hplain⟩

/-- A client publishes on the topic `a"b`, without a body, and the message is refused. The audit
event is not JSON. -/
theorem quoted_topic_no_json :
    ∃ t m sys, exec (State.step ⟨4, 0, 5000⟩) (State.init ⟨4, 0, 5000⟩)
        [.accept 5, .accept 6, .frame 0 0x02 0 [0, 1, 0x2a, 0, 0],
          .frame 1 0x01 0 [0, 3, 0x61, 0x22, 0x62], .client 1, .client 1, .pop,
          .route [⟨[0x2a], ascii "__unique_5", 5⟩], .track 0, .send, .frame 0 0x04 1 [], .client 0,
          .client 0, .log, .log, .log] = some t ∧
      .deadLettered m ∈ t.trace ∧ m.topic = toUtf8 (JsString.ofString "$DLQ.a\"b") ∧ m.body = [] ∧
      .audited sys ∈ t.trace ∧ sys.topic = sysDlqTopic ∧ (∀ v, ¬JsonBytes sys.body v) ∧
      ¬IsAuditOf sys.body (JsString.ofString "$DLQ.a\"b") (.object []) := by
  have hbad : ∀ v, ¬JsonBytes (State.auditBody ⟨1, ascii "$DLQ.a\"b", [], 0, 0⟩) v := by
    rintro v ⟨s, hs, hbytes, htext⟩
    have hparse := Json.parse_of_text htext
    rw [← ofUtf8_toUtf8 hs, ← hbytes] at hparse
    have hnone : (Json.parse (ofUtf8 (State.auditBody
        ⟨1, ascii "$DLQ.a\"b", [], 0, 0⟩))).isSome = false := by decide +kernel
    rw [hparse] at hnone
    cases hnone
  obtain ⟨t, ht, hend⟩ := (Option.any_eq_true _ _).mp
    (show (exec (State.step ⟨4, 0, 5000⟩) (State.init ⟨4, 0, 5000⟩)
      [.accept 5, .accept 6, .frame 0 0x02 0 [0, 1, 0x2a, 0, 0],
        .frame 1 0x01 0 [0, 3, 0x61, 0x22, 0x62], .client 1, .client 1, .pop,
        .route [⟨[0x2a], ascii "__unique_5", 5⟩], .track 0, .send, .frame 0 0x04 1 [], .client 0,
        .client 0, .log, .log, .log]).any (fun t =>
        .deadLettered ⟨1, ascii "$DLQ.a\"b", [], 0, 0⟩ ∈ t.trace ∧
        .audited ⟨2, sysDlqTopic, State.auditBody ⟨1, ascii "$DLQ.a\"b", [], 0, 0⟩, 0, 1⟩ ∈
          t.trace) = true by decide +kernel)
  obtain ⟨hdead, haudit⟩ := of_decide_eq_true hend
  exact ⟨t, _, _, ht, hdead, by decide +kernel, rfl, haudit, rfl, hbad,
    fun ⟨ms, hms, _⟩ => hbad (.object ms) hms⟩

end EventQueue.Broker
