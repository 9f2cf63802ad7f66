import EventQueue.Gateway.WsServer
import EventQueue.Lib.Transition

/-!
# The WebSocket server over whole runs

Clients connect, send messages, and close in any order, a client's message may be handled after its
socket has closed, and `#dispatchEvent` is called in between. An exception ends the process; the
runs here go on after one, with what the handler had done to the server.

`Tracked` is what every run keeps of the two maps: they are inverse, `#topicClients` has no empty
set, and a client that has closed is in neither. The ring is the window of the identifiers that were
accepted (`ring_is_window`). An event goes once to each open client for every pattern of its that
matches (`filter_fanOut`), so it goes exactly once to each only when no open client has two such
patterns (`one_copy_each_iff`).
-/

namespace EventQueue.Gateway

open Transition (Run exec run_of_exec)

namespace WsServer

/-- What can happen to the server. -/
inductive Event
  /-- A client connects. -/
  | connection
  /-- A client's message is handled. -/
  | message (w : Ws) (m : ClientMessage)
  /-- A socket starts to close. -/
  | closing (w : Ws)
  /-- A socket has closed. -/
  | close (w : Ws)
  /-- `#dispatchEvent` is called, with an event of the broker's or with the statistics. -/
  | dispatch (topic : JsString) (msgId : UInt64) (body : Bytes)
deriving DecidableEq, Repr

/-- The server after an event; `none` when the event is one of a socket that is not there. -/
def step (ringSize : ℕ) (s : WsServer) : Event → Option WsServer
  | .connection => some s.connection
  | .message w m => if w < s.sockets.length then some (s.handleMessage w m).server else none
  | .closing w => if s.isOpen w then some (s.closing w) else none
  | .close w => if w < s.sockets.length then some (s.close w) else none
  | .dispatch topic msgId body => some (s.dispatchEvent ringSize topic msgId body).1

variable {ringSize : ℕ} {s t : WsServer} {e : Event} {as : List Event} {w : Ws}
  {topic : JsString} {msgId : UInt64} {body : Bytes}

/-- A client's message tracks a subscription, or it leaves the server as it is. -/
theorem handleMessage_server (s : WsServer) (w : Ws) (m : ClientMessage) :
    (s.handleMessage w m).server = s ∨ ∃ topic clientSet,
      s.clientTopics.lookup w = some clientSet ∧
        (s.handleMessage w m).server = s.track w topic clientSet := by
  cases m with
  | invalid | unknown | throws => exact .inl rfl
  | subscribe topic group =>
    simp only [handleMessage, subscribe]
    split_ifs
    · exact .inl rfl
    · cases hlookup : s.clientTopics.lookup w with
      | none => exact .inl rfl
      | some clientSet => exact .inr ⟨topic, clientSet, rfl, sendFrame_server _ _ _⟩
  | publish topic body =>
    simp only [handleMessage]
    split_ifs
    · exact .inl rfl
    · exact .inl (sendFrame_server _ _ _)
  | ack msgId =>
    cases msgId with
    | none => exact .inl rfl
    | some msgId => exact .inl (sendFrame_server _ _ _)
  | nack msgId =>
    cases msgId with
    | none => exact .inl rfl
    | some msgId => exact .inl (sendFrame_server _ _ _)

/-- What an event does to the server. -/
inductive Moves (ringSize : ℕ) (s : WsServer) : Event → WsServer → Prop
  | connection : Moves ringSize s .connection s.connection
  | ignored (w : Ws) (m : ClientMessage) : Moves ringSize s (.message w m) s
  | tracked (w : Ws) (m : ClientMessage) (topic : JsString) (clientSet : OrderedSet JsString)
      (hlookup : s.clientTopics.lookup w = some clientSet) :
      Moves ringSize s (.message w m) (s.track w topic clientSet)
  | closing (w : Ws) (hopen : s.isOpen w = true) : Moves ringSize s (.closing w) (s.closing w)
  | close (w : Ws) (hw : w < s.sockets.length) : Moves ringSize s (.close w) (s.close w)
  | dispatch (topic : JsString) (msgId : UInt64) (body : Bytes) :
      Moves ringSize s (.dispatch topic msgId body) { s with
        ring := if s.suppresses topic msgId || exempt topic then s.ring
          else s.ring.accept ringSize msgId }

theorem moves_of_step (h : s.step ringSize e = some t) : Moves ringSize s e t := by
  cases e with
  | connection =>
    obtain rfl := Option.some.inj h
    exact .connection
  | message w m =>
    simp only [step] at h
    split_ifs at h
    obtain rfl := Option.some.inj h
    obtain heq | ⟨topic, clientSet, hlookup, heq⟩ := s.handleMessage_server w m
    · rw [heq]
      exact .ignored w m
    · rw [heq]
      exact .tracked w m topic clientSet hlookup
  | closing w =>
    simp only [step] at h
    split_ifs at h with hopen
    obtain rfl := Option.some.inj h
    exact .closing w hopen
  | close w =>
    simp only [step] at h
    split_ifs at h with hw
    obtain rfl := Option.some.inj h
    exact .close w hw
  | dispatch topic msgId body =>
    obtain rfl := Option.some.inj h
    rw [dispatchEvent_fst]
    exact .dispatch topic msgId body

/-! ## The two maps -/

/-- What every run keeps of the two maps. -/
structure Tracked (s : WsServer) : Prop where
  /-- They are inverse to each other. -/
  indexed : s.Indexed
  /-- No topic has an empty set. -/
  inhabited : ∀ topic clients, s.topicClients.lookup topic = some clients → clients.elems ≠ []
  /-- A client that has closed is not tracked. -/
  gone : ∀ w : Ws, s.sockets[w]? = some .CLOSED → s.clientTopics.lookup w = none

theorem tracked_create : create.Tracked where
  indexed := indexed_create
  inhabited topic clients h := by simp [create] at h
  gone w h := by simp [create] at h

/-- A pass of the clean-up leaves no empty set behind. -/
theorem inhabited_forget {topicClients : AList fun _ : JsString => OrderedSet Ws}
    (h : ∀ topic clients, topicClients.lookup topic = some clients → clients.elems ≠ [])
    (topic' : JsString) :
    ∀ topic clients, (forget w topicClients topic').lookup topic = some clients →
      clients.elems ≠ [] := by
  intro topic clients hclients
  unfold forget at hclients
  cases hlookup : topicClients.lookup topic' with
  | none =>
    rw [hlookup] at hclients
    exact h topic clients hclients
  | some clients' =>
    rw [hlookup] at hclients
    dsimp only at hclients
    split_ifs at hclients with hempty
    · rw [AList.lookup_erase_eq] at hclients
      split_ifs at hclients
      exact h topic clients hclients
    · rw [AList.lookup_set] at hclients
      split_ifs at hclients
      · obtain rfl := Option.some.inj hclients
        exact fun hnil => hempty (List.isEmpty_iff.mpr hnil)
      · exact h topic clients hclients

/-- Nor does the whole of it. -/
theorem inhabited_foldl_forget {topics : List JsString}
    {topicClients : AList fun _ : JsString => OrderedSet Ws}
    (h : ∀ topic clients, topicClients.lookup topic = some clients → clients.elems ≠ []) :
    ∀ topic clients, (topics.foldl (forget w) topicClients).lookup topic = some clients →
      clients.elems ≠ [] := by
  induction topics generalizing topicClients with
  | nil => exact h
  | cons topic' topics ih => exact ih (inhabited_forget h topic')

/-- Every event keeps the two maps. -/
theorem Tracked.moves (hs : s.Tracked) (h : Moves ringSize s e t) : t.Tracked := by
  cases h with
  | connection =>
    refine ⟨hs.indexed.connection, hs.inhabited, fun w hw => ?_⟩
    -- The new socket is open, so a socket that has closed is an earlier one.
    have hlt : w < s.sockets.length := by
      by_contra hge
      simp only [connection, List.getElem?_append_right (not_lt.mp hge)] at hw
      cases hsub : w - s.sockets.length with
      | zero => simp [hsub] at hw
      | succ n => simp [hsub] at hw
    simp only [connection, List.getElem?_append_left hlt] at hw
    simp only [connection, AList.lookup_set, if_neg hlt.ne]
    exact hs.gone w hw
  | ignored w m => exact hs
  | tracked w m topic clientSet hlookup =>
    refine ⟨hs.indexed.track hlookup, fun topic' clients hclients => ?_, fun w' hw' => ?_⟩
    · simp only [track, AList.lookup_set] at hclients
      split_ifs at hclients
      · obtain rfl := Option.some.inj hclients
        exact List.ne_nil_of_mem (OrderedSet.mem_elems_add.mpr (.inr rfl))
      · exact hs.inhabited topic' clients hclients
    · have hnone := hs.gone w' hw'
      have hne : w' ≠ w := by
        rintro rfl
        rw [hlookup] at hnone
        cases hnone
      simp only [track, AList.lookup_set, if_neg hne]
      exact hnone
  | closing w hopen =>
    refine ⟨hs.indexed.closing w, hs.inhabited, fun w' hw' => hs.gone w' ?_⟩
    simp only [closing, List.getElem?_set] at hw'
    split_ifs at hw' with heq hlt
    · cases hw'
    · exact hw'
  | close w hw =>
    refine ⟨hs.indexed.close w, inhabited_foldl_forget hs.inhabited, fun w' hw' => ?_⟩
    simp only [close, cleanupClient, AList.lookup_erase_eq]
    split_ifs with heq
    · rfl
    · simp only [close, cleanupClient, List.getElem?_set, if_neg (Ne.symm heq)] at hw'
      exact hs.gone w' hw'
  | dispatch topic msgId body =>
    exact ⟨⟨hs.indexed.inverse, hs.indexed.known, hs.indexed.opened⟩, hs.inhabited, hs.gone⟩

/-- So does every run. -/
theorem Run.tracked (hrun : Run (step ringSize) (fun _ _ => True) create as s) : s.Tracked :=
  hrun.invariant (fun _ _ _ hs _ h => hs.moves (moves_of_step h)) tracked_create

/-- A socket that has closed stays closed. -/
theorem Moves.closed (h : Moves ringSize s e t) (hw : s.sockets[w]? = some .CLOSED) :
    t.sockets[w]? = some .CLOSED := by
  have hlt : w < s.sockets.length := (List.getElem?_eq_some_iff.mp hw).1
  cases h with
  | connection =>
    simp only [WsServer.connection, List.getElem?_append_left hlt]
    exact hw
  | ignored | tracked | dispatch => exact hw
  | closing w' hopen =>
    have hne : w' ≠ w := by
      rintro rfl
      simp [isOpen, hw] at hopen
    simp only [WsServer.closing, List.getElem?_set, if_neg hne]
    exact hw
  | close w' hw' =>
    simp only [WsServer.close, cleanupClient, List.getElem?_set]
    split_ifs
    · rfl
    · exact hw

/-- A client of whose closing the server has heard has closed. -/
theorem Run.closed (hrun : Run (step ringSize) (fun _ _ => True) create as s)
    (hclose : .close w ∈ as) : s.sockets[w]? = some .CLOSED := by
  induction hrun with
  | nil => cases hclose
  | snoc hrun _ h ih =>
    have hmoves := moves_of_step h
    obtain hclose | hclose := List.mem_append.mp hclose
    · exact hmoves.closed (ih hclose)
    · obtain rfl := List.mem_singleton.mp hclose
      cases hmoves with
      | close _ hw => simp [close, cleanupClient, hw]

/-- In every run a client is in the set of a topic exactly when the topic is in the client's set, no
topic has an empty set, and a client that has closed is in neither map. -/
theorem indices_inverse (ringSize : ℕ) (as : List Event) (s : WsServer)
    (hrun : Run (step ringSize) (fun _ _ => True) create as s) :
    (∀ w topic, s.Lists topic w ↔ s.Has w topic) ∧
      (∀ topic clients, s.topicClients.lookup topic = some clients → clients.elems ≠ []) ∧
      ∀ w, .close w ∈ as →
        s.clientTopics.lookup w = none ∧ ∀ topic, ¬s.Lists topic w := by
  have hs := Run.tracked hrun
  refine ⟨fun w topic => (hs.indexed.inverse w topic).symm, hs.inhabited, fun w hclose => ?_⟩
  have hnone := hs.gone w (Run.closed hrun hclose)
  refine ⟨hnone, fun topic hlists => ?_⟩
  obtain ⟨topics, hlookup, -⟩ := (hs.indexed.inverse w topic).mpr hlists
  rw [hnone] at hlookup
  cases hlookup

/-- Two clients subscribe to a topic, one of them closes, and a message of that one is handled after
it: the topic has the other one in its set alone. -/
theorem indices_inverse_closed :
    ∃ s, exec (step 2) create [.connection, .connection,
        .message 0 (.subscribe (JsString.ofString "a") []),
        .message 1 (.subscribe (JsString.ofString "a") []), .close 0,
        .message 0 (.subscribe (JsString.ofString "b") [])] = some s ∧
      s.Lists (JsString.ofString "a") 1 ∧ s.clientTopics.lookup 0 = none ∧
      ¬s.Lists (JsString.ofString "b") 0 := by
  obtain ⟨s, hexec⟩ : ∃ s, exec (step 2) create [.connection, .connection,
      .message 0 (.subscribe (JsString.ofString "a") []),
      .message 1 (.subscribe (JsString.ofString "a") []), .close 0,
      .message 0 (.subscribe (JsString.ofString "b") [])] = some s := ⟨_, rfl⟩
  obtain ⟨hinverse, -, hgone⟩ := indices_inverse 2 _ s (run_of_exec hexec)
  obtain ⟨hnone, hnot⟩ := hgone 0 (by decide)
  have hhas : s.Has 1 (JsString.ofString "a") := by
    obtain rfl := Option.some.inj hexec
    exact ⟨_, rfl, by decide⟩
  exact ⟨s, hexec, (hinverse 1 _).mpr hhas, hnone, hnot _⟩

/-! ## The ring -/

/-- The identifiers that an exact window of the last `ringSize` of them accepts. -/
def acceptNext (ringSize : ℕ) (ids : List UInt64) : Event → List UInt64
  | .dispatch topic msgId _ =>
    if exempt topic ∨ msgId ∈ ids.rtake ringSize then ids else ids ++ [msgId]
  | _ => ids

/-- The identifiers that it accepts along some events, oldest first. -/
def acceptedAlong (ringSize : ℕ) (as : List Event) : List UInt64 :=
  as.foldl (acceptNext ringSize) []

/-- The ring follows the window. -/
theorem window_moves (hpos : 0 < ringSize) {ids : List UInt64}
    (hs : Ring.Window ringSize ids s.ring) (h : Moves ringSize s e t) :
    Ring.Window ringSize (acceptNext ringSize ids e) t.ring := by
  cases h with
  | connection | ignored | tracked | closing | close => exact hs
  | dispatch topic msgId body =>
    have hsuppresses : s.suppresses topic msgId = true ↔
        exempt topic = false ∧ msgId ∈ ids.rtake ringSize := by
      simp [suppresses, hs.has_iff]
    cases hexempt : exempt topic with
    | true => simpa [acceptNext, hexempt] using hs
    | false =>
      by_cases hmem : msgId ∈ ids.rtake ringSize
      · simpa [acceptNext, hexempt, hmem, hsuppresses] using hs
      · -- The identifier is accepted.
        have hnot : s.suppresses topic msgId = false := by
          rw [← Bool.not_eq_true, hsuppresses]
          exact fun h => hmem h.2
        have hfresh : s.ring.recentMsgIds.has msgId = false := by
          rw [← Bool.not_eq_true, hs.has_iff]
          exact hmem
        simpa [acceptNext, hexempt, hmem, hnot] using hs.accept hpos hfresh

/-- In every run the ring is the window of the identifiers that were accepted. -/
theorem Run.window (hpos : 0 < ringSize)
    (hrun : Run (step ringSize) (fun _ _ => True) create as s) :
    Ring.Window ringSize (acceptedAlong ringSize as) s.ring := by
  induction hrun with
  | nil => exact Ring.window_empty ringSize
  | snoc _ _ h ih =>
    rw [acceptedAlong, List.foldl_concat]
    exact window_moves hpos ih (moves_of_step h)

/-- A client's socket is open, and a pattern of its matches the topic. -/
def Wants (s : WsServer) (w : Ws) (topic : JsString) : Prop :=
  s.isOpen w = true ∧ ∃ pattern, s.Has w pattern ∧ topicMatches pattern topic = true

/-- What `#dispatchEvent` sends to a client. -/
def sentTo (ringSize : ℕ) (s : WsServer) (topic : JsString) (msgId : UInt64) (body : Bytes)
    (w : Ws) : List WsMessage :=
  ((s.dispatchEvent ringSize topic msgId body).2.filter (·.1 = w)).map Prod.snd

/-- The envelope goes exactly once to each client that wants it, and to no other. -/
def OneCopyEach (ringSize : ℕ) (s : WsServer) (topic : JsString) (msgId : UInt64)
    (body : Bytes) : Prop :=
  ∀ w, (s.Wants w topic → s.sentTo ringSize topic msgId body w = [.event topic msgId body]) ∧
    (¬s.Wants w topic → s.sentTo ringSize topic msgId body w = [])

/-- No client whose socket is open has two patterns that match the topic. -/
def PatternsDisjoint (s : WsServer) (topic : JsString) : Prop :=
  ∀ w, s.isOpen w = true → ∀ p q, s.Has w p → s.Has w q → topicMatches p topic = true →
    topicMatches q topic = true → p = q

/-- The loop of `#dispatchEvent` comes to a client at an entry of the table. -/
def reaches (s : WsServer) (topic : JsString) (w : Ws)
    (entry : (_ : JsString) × OrderedSet Ws) : Bool :=
  topicMatches entry.1 topic && s.isOpen w && entry.2.has w

/-- An open client in a set is there once. -/
theorem filter_clients (s : WsServer) (clients : OrderedSet Ws) (w : Ws) :
    (clients.elems.filter s.isOpen).filter (· = w) =
      if s.isOpen w && clients.has w then [w] else [] := by
  have hcomm : (clients.elems.filter s.isOpen).filter (· = w) =
      (clients.elems.filter (· = w)).filter s.isOpen := by
    rw [List.filter_filter, List.filter_filter]
    exact List.filter_congr fun _ _ => Bool.and_comm _ _
  have honce : clients.elems.filter (· = w) = if clients.has w then [w] else [] := by
    rw [List.filter_eq, clients.nodup.count]
    simp only [OrderedSet.has, decide_eq_true_eq]
    split_ifs <;> rfl
  rw [hcomm, honce]
  cases hopen : s.isOpen w <;> cases hhas : clients.has w <;> simp [hopen]

/-- A list that has one element for each of some others is as long as there are of these. -/
theorem flatMap_ite_singleton {α β : Type*} (l : List α) (p : α → Bool) (b : β) :
    (l.flatMap fun a => if p a then [b] else []) = List.replicate (l.countP p) b := by
  induction l with
  | nil => rfl
  | cons a l ih =>
    rw [List.flatMap_cons, ih, List.countP_cons]
    split_ifs
    · rw [Nat.add_comm, List.replicate_add]
      rfl
    · rfl

/-- The loop comes to a client once for each pattern of its that matches. -/
theorem filter_fanOut (s : WsServer) (topic : JsString) (w : Ws) :
    (s.fanOut topic).filter (· = w) =
      List.replicate (s.topicClients.entries.countP (s.reaches topic w)) w := by
  rw [fanOut, List.filter_flatMap, ← flatMap_ite_singleton]
  congr 1
  funext entry
  cases hmatch : topicMatches entry.1 topic with
  | true => simp only [if_true, filter_clients, reaches, hmatch, Bool.true_and]
  | false => simp [reaches, hmatch]

/-- So it sends the client as many copies of the envelope. -/
theorem sentTo_eq (hpasses : s.suppresses topic msgId = false) (w : Ws) :
    s.sentTo ringSize topic msgId body w =
      List.replicate (s.topicClients.entries.countP (s.reaches topic w))
        (.event topic msgId body) := by
  unfold sentTo dispatchEvent
  rw [hpasses, if_neg Bool.false_ne_true]
  dsimp only
  rw [List.filter_map, List.map_map]
  have hcopies := congrArg (List.map fun _ => WsMessage.event topic msgId body)
    (s.filter_fanOut topic w)
  rw [List.map_replicate] at hcopies
  exact hcopies

/-- The entries at which the loop comes to a client are those of its patterns that match. -/
theorem exists_reaches (hs : s.Tracked) (p : JsString) :
    (∃ clients, s.reaches topic w ⟨p, clients⟩ = true ∧
        (⟨p, clients⟩ : (_ : JsString) × OrderedSet Ws) ∈ s.topicClients.entries) ↔
      s.isOpen w = true ∧ s.Has w p ∧ topicMatches p topic = true := by
  rw [hs.indexed.inverse]
  simp only [reaches, Bool.and_eq_true, OrderedSet.has_eq_true, AList.mem_entries_iff, Lists]
  constructor
  · rintro ⟨clients, ⟨⟨hmatch, hopen⟩, hmem⟩, hlookup⟩
    exact ⟨hopen, ⟨clients, hlookup, hmem⟩, hmatch⟩
  · rintro ⟨hopen, ⟨clients, hlookup, hmem⟩, hmatch⟩
    exact ⟨clients, ⟨⟨hmatch, hopen⟩, hmem⟩, hlookup⟩

/-- The loop comes to a client at some entry when it wants the event. -/
theorem countP_reaches_pos (hs : s.Tracked) :
    0 < s.topicClients.entries.countP (s.reaches topic w) ↔ s.Wants w topic := by
  rw [List.countP_pos_iff]
  constructor
  · rintro ⟨⟨p, clients⟩, hmem, hreaches⟩
    obtain ⟨hopen, hhas, hmatch⟩ := (exists_reaches hs p).mp ⟨clients, hreaches, hmem⟩
    exact ⟨hopen, p, hhas, hmatch⟩
  · rintro ⟨hopen, p, hhas, hmatch⟩
    obtain ⟨clients, hreaches, hmem⟩ := (exists_reaches hs p).mpr ⟨hopen, hhas, hmatch⟩
    exact ⟨⟨p, clients⟩, hmem, hreaches⟩

/-- It comes to a client at no more than one entry when no two patterns of its match. -/
theorem countP_reaches_le_one (hs : s.Tracked) :
    s.topicClients.entries.countP (s.reaches topic w) ≤ 1 ↔
      (s.isOpen w = true → ∀ p q, s.Has w p → s.Has w q → topicMatches p topic = true →
        topicMatches q topic = true → p = q) := by
  -- The entries have distinct keys, so they are counted by their keys.
  have hnodup : (s.topicClients.entries.filter (s.reaches topic w)).Nodup :=
    (List.NodupKeys.nodup s.topicClients.nodupKeys).filter _
  rw [List.countP_eq_length_filter, ← List.toFinset_card_of_nodup hnodup, Finset.card_le_one]
  simp only [List.mem_toFinset, List.mem_filter]
  constructor
  · intro h hopen p q hp hq hmatchp hmatchq
    obtain ⟨clients, hreaches, hmem⟩ := (exists_reaches hs p).mpr ⟨hopen, hp, hmatchp⟩
    obtain ⟨clients', hreaches', hmem'⟩ := (exists_reaches hs q).mpr ⟨hopen, hq, hmatchq⟩
    exact congrArg Sigma.fst (h _ ⟨hmem, hreaches⟩ _ ⟨hmem', hreaches'⟩)
  · rintro h ⟨p, clients⟩ ⟨hmem, hreaches⟩ ⟨q, clients'⟩ ⟨hmem', hreaches'⟩
    obtain ⟨hopen, hp, hmatchp⟩ := (exists_reaches hs p).mp ⟨clients, hreaches, hmem⟩
    obtain ⟨-, hq, hmatchq⟩ := (exists_reaches hs q).mp ⟨clients', hreaches', hmem'⟩
    obtain rfl := h hopen p q hp hq hmatchp hmatchq
    rw [AList.mem_entries_iff] at hmem hmem'
    rw [hmem] at hmem'
    rw [Option.some.inj hmem']

/-- In every run, and for every event that passes the idempotency check: the envelope goes exactly
once to each open client with a pattern that matches and to no other, if and only if no open client
has two patterns that match. -/
theorem one_copy_each_iff (ringSize : ℕ) (as : List Event) (s : WsServer)
    (hrun : Run (step ringSize) (fun _ _ => True) create as s) (topic : JsString) (msgId : UInt64)
    (body : Bytes) (hpasses : s.suppresses topic msgId = false) :
    s.OneCopyEach ringSize topic msgId body ↔ s.PatternsDisjoint topic := by
  have hs := Run.tracked hrun
  have hone : ∀ w, ((s.Wants w topic →
      s.sentTo ringSize topic msgId body w = [.event topic msgId body]) ∧
        (¬s.Wants w topic → s.sentTo ringSize topic msgId body w = [])) ↔
      s.topicClients.entries.countP (s.reaches topic w) ≤ 1 := by
    intro w
    rw [sentTo_eq hpasses, ← countP_reaches_pos hs]
    generalize s.topicClients.entries.countP (s.reaches topic w) = n
    match n with
    | 0 => simp
    | 1 => simp
    | n + 2 => simp [List.replicate_succ]
  unfold OneCopyEach PatternsDisjoint
  exact forall_congr' fun w => (hone w).trans (countP_reaches_le_one hs)

/-- A client that has subscribed to `a.b` alone gets an event on `a.b` once. -/
theorem one_copy_each_single :
    ∃ s, exec (step 2) create [.connection,
        .message 0 (.subscribe (JsString.ofString "a.b") [])] = some s ∧
      (s.OneCopyEach 2 (JsString.ofString "a.b") 7 [] ↔
        s.PatternsDisjoint (JsString.ofString "a.b")) ∧
      s.sentTo 2 (JsString.ofString "a.b") 7 [] 0 = [.event (JsString.ofString "a.b") 7 []] := by
  obtain ⟨s, hexec⟩ : ∃ s, exec (step 2) create [.connection,
      .message 0 (.subscribe (JsString.ofString "a.b") [])] = some s := ⟨_, rfl⟩
  have hpasses : s.suppresses (JsString.ofString "a.b") 7 = false := by
    obtain rfl := Option.some.inj hexec
    decide
  refine ⟨s, hexec, one_copy_each_iff 2 _ s (run_of_exec hexec) _ 7 [] hpasses, ?_⟩
  obtain rfl := Option.some.inj hexec
  decide

/-- A client that has subscribed to `a.b` and to `a.*` gets an event on `a.b` twice. -/
theorem overlapping_patterns_duplicate :
    ∃ s, exec (step RING_SIZE) create [.connection,
        .message 0 (.subscribe (JsString.ofString "a.b") []),
        .message 0 (.subscribe (JsString.ofString "a.*") [])] = some s ∧
      s.suppresses (JsString.ofString "a.b") 7 = false ∧
      s.sentTo RING_SIZE (JsString.ofString "a.b") 7 [] 0 =
        [.event (JsString.ofString "a.b") 7 [], .event (JsString.ofString "a.b") 7 []] ∧
      ¬s.OneCopyEach RING_SIZE (JsString.ofString "a.b") 7 [] := by
  obtain ⟨s, hexec⟩ : ∃ s, exec (step RING_SIZE) create [.connection,
      .message 0 (.subscribe (JsString.ofString "a.b") []),
      .message 0 (.subscribe (JsString.ofString "a.*") [])] = some s := ⟨_, rfl⟩
  have hpasses : s.suppresses (JsString.ofString "a.b") 7 = false := by
    obtain rfl := Option.some.inj hexec
    decide
  have htwice : s.sentTo RING_SIZE (JsString.ofString "a.b") 7 [] 0 =
      [.event (JsString.ofString "a.b") 7 [], .event (JsString.ofString "a.b") 7 []] := by
    obtain rfl := Option.some.inj hexec
    decide
  refine ⟨s, hexec, hpasses, htwice, fun hone => ?_⟩
  obtain hwants | hnot := Classical.em (s.Wants 0 (JsString.ofString "a.b"))
  · rw [(hone 0).1 hwants] at htwice
    cases htwice
  · rw [(hone 0).2 hnot] at htwice
    cases htwice

end WsServer

end EventQueue.Gateway
