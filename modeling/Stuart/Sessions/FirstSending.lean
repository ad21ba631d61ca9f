/-
The order of the first transmissions of a session.

A message of QoS 1 or 2 goes out at once or waits in the queue, and a queue with something in it
keeps the next message from going out at once.  So what was sent first and what is still waiting
make one list in the order of acceptance (`Inv`): `dequeue` moves the border between the two, and a
full queue gives up the first message that waits.  Only a retry sends a message again, and it marks
the PUBLISH, so the first transmissions are what all other calls send.
-/
import Stuart.Lib.Runs
import Stuart.Sessions.SessionFrame

namespace Stuart

open List Lib

namespace FirstSending

open SessionWrapper

variable {kind : SessionKind}

/-- A call of a method of a wrapper, or an event of its connection. -/
inductive Op where
  | publishMessage (message : MqttMessage) (qos : MqttQoS)
  | receivePuback (messageId : ℤ)
  | receivePubrec (messageId : ℤ)
  | receivePubcomp (messageId : ℤ)
  | retry (messageId : ℤ)
  | publishCachedMessage
  /-- the endpoint is accepted or lost -/
  | connectivity (isConnected : Bool)
  /-- the client connects again, and a persistent wrapper is used again -/
  | refreshEndpoint
  /-- the client connects again, and a new wrapper is built over what is stored -/
  | reopen

def refreshEndpoint : {kind : SessionKind} → SessionWrapper kind → SessionWrapper kind
  | .transient, w => w
  | .persistent, w => PersistentSessionWrapper.refreshEndpoint w
      (.create (w.endpoint.id + 1) w.thisClientId false)

def reopen : {kind : SessionKind} → SessionWrapper kind → SessionWrapper kind
  | .transient, w => w
  | .persistent, w => PersistentSessionWrapper.new w.config
      (.create (w.endpoint.id + 1) w.thisClientId false) w.queue.items w.inflights w.ledger

def step (w : SessionWrapper kind) : Op → SessionWrapper kind
  | .publishMessage message qos => w.publishMessage message qos
  | .receivePuback messageId => w.receivePuback messageId
  | .receivePubrec messageId => w.receivePubrec messageId
  | .receivePubcomp messageId => w.receivePubcomp messageId
  | .retry messageId => w.retry messageId
  | .publishCachedMessage => w.publishCachedMessage
  | .connectivity isConnected =>
      { w with endpoint := { w.endpoint with isConnected := isConnected } }
  | .refreshEndpoint => refreshEndpoint w
  | .reopen => reopen w

/-- A new wrapper; of a persistent session nothing is stored yet. -/
def new (config : Config) (endpoint : MqttEndpoint) : (kind : SessionKind) → SessionWrapper kind
  | .transient => TransientSessionWrapper.new config endpoint
  | .persistent => PersistentSessionWrapper.new config endpoint []
      (.create config.sessionInflightMaxCapacity) .empty

/-! ### First transmissions -/

/-- The messages of QoS 1 and 2 whose PUBLISH is among the packets. -/
def transmitted (packets : List MqttPacket) : List ℕ :=
  packets.filterMap fun packet =>
    match packet with
    | .publish _ uid _ _ qos _ _ => if qos = .atMostOnce then none else some uid
    | .pubrel _ => none

/-- The call sends an inflight message again. -/
def resends (w : SessionWrapper kind) : Op → Bool
  | .retry messageId =>
      match w.inflights.get messageId with
      | none => false
      | some message => decide (message.retry < w.config.sessionInflightMaxRetries)
  | _ => false

/-- The first transmissions of a call. -/
def firsts (w : SessionWrapper kind) (op : Op) : List ℕ :=
  if resends w op then []
  else transmitted ((step w op).endpoint.written.drop w.endpoint.written.length)

/-- The first message of a full queue, if the call puts another one behind. -/
def evictions (w : SessionWrapper kind) : Op → List ℕ
  | .publishMessage message qos =>
      if (({ w with ledger := w.ledger.accept qos }).handleMessage
          (w.copyMqttMessage message qos)).1 = MsgConst.ENQUEUE_SUCCEEDED then
        w.queue.evicted.map MqttMessage.uid
      else []
  | _ => []

/-- A wrapper with what its calls have done. -/
structure Session (kind : SessionKind) where
  wrapper : SessionWrapper kind
  firsts : List ℕ
  evicted : List ℕ

def Session.step (s : Session kind) (op : Op) : Session kind where
  wrapper := FirstSending.step s.wrapper op
  firsts := s.firsts ++ FirstSending.firsts s.wrapper op
  evicted := s.evicted ++ evictions s.wrapper op

def Session.new (config : Config) (endpoint : MqttEndpoint) (kind : SessionKind) : Session kind :=
  ⟨FirstSending.new config endpoint kind, [], []⟩

/-- The messages of QoS 1 and 2 of a queue, by their place in the ledger. -/
def waiting (items : List MqttMessage) : List ℕ :=
  (items.filter fun message => message.qos ≠ .atMostOnce).map MqttMessage.uid

/-- The message was accepted with QoS 1 or 2. -/
def Accepted (w : SessionWrapper kind) (uid : ℕ) : Prop :=
  ∃ qos, w.ledger.accepted[uid]? = some qos ∧ qos ≠ .atMostOnce

/-- The first transmissions are in the order of acceptance, each message has one at most, and one
that has none is in the queue or was the first of a full one. -/
structure InOrder (s : Session kind) : Prop where
  accepted : ∀ uid ∈ s.firsts, Accepted s.wrapper uid
  ordered : s.firsts.Pairwise (· < ·)
  covered : ∀ uid, Accepted s.wrapper uid → uid ∉ s.firsts →
    uid ∈ waiting s.wrapper.queue.items ∨ uid ∈ s.evicted

/-! ### What a method sends -/

/-- From `w` to `w'` these messages of QoS 1 and 2 are sent. -/
structure Sends (w w' : SessionWrapper kind) (uids : List ℕ) : Prop where
  written : ∃ packets, w'.endpoint.written = w.endpoint.written ++ packets ∧
    transmitted packets = uids
  accepted : w'.ledger.accepted = w.ledger.accepted

variable {w w' w'' : SessionWrapper kind} {uids uids' : List ℕ} {message : MqttMessage}

lemma Sends.of_eq (hend : w'.endpoint = w.endpoint)
    (haccepted : w'.ledger.accepted = w.ledger.accepted) : Sends w w' [] :=
  ⟨⟨[], by rw [hend, append_nil], rfl⟩, haccepted⟩

lemma Sends.refl (w : SessionWrapper kind) : Sends w w [] := .of_eq rfl rfl

lemma Sends.trans (h : Sends w w' uids) (h' : Sends w' w'' uids') :
    Sends w w'' (uids ++ uids') := by
  obtain ⟨packets, hwritten, rfl⟩ := h.written
  obtain ⟨packets', hwritten', rfl⟩ := h'.written
  refine ⟨⟨packets ++ packets', ?_, filterMap_append⟩, h'.accepted.trans h.accepted⟩
  rw [hwritten', hwritten, append_assoc]

/-- What was sent can be read off from the packets. -/
lemma Sends.transmitted_drop (h : Sends w w' uids) :
    transmitted (w'.endpoint.written.drop w.endpoint.written.length) = uids := by
  obtain ⟨packets, hwritten, rfl⟩ := h.written
  rw [hwritten, drop_left]

lemma sends_publish (hc : w.endpoint.isConnected = true) (message : MqttMessage)
    (everPublished : Bool) : Sends w (w.publish message everPublished).2 (waiting [message]) := by
  rw [publish_of_connected w message everPublished hc]
  refine ⟨⟨_, rfl, ?_⟩, rfl⟩
  by_cases hq : message.qos = .atMostOnce <;> simp [transmitted, waiting, hq]

lemma sends_publish_qos0 (hq : message.qos = .atMostOnce) (everPublished : Bool) :
    Sends w (w.publish message everPublished).2 [] := by
  cases hc : w.endpoint.isConnected with
  | true =>
      have hsends := sends_publish hc message everPublished
      simpa [waiting, hq] using hsends
  | false =>
      rw [publish_of_not_connected w message everPublished hc]
      exact Sends.refl w

lemma sends_sent (hc : w.endpoint.isConnected = true) (message : MqttMessage) :
    Sends w (w.sent message) (waiting [message]) := by
  obtain ⟨messageId, hid⟩ : ∃ messageId, messageId = nextId w.endpoint.lastMessageId := ⟨_, rfl⟩
  have hsame : waiting [{ message with messageId := messageId }] = waiting [message] := by
    by_cases hq : message.qos = .atMostOnce <;> simp [waiting, hq]
  have hstored : Sends w ((w.putInflight messageId
      { message with messageId := messageId }).saveInflightTimeout messageId) [] :=
    Sends.of_eq rfl rfl
  have hpublish := sends_publish (w := (w.putInflight messageId
      { message with messageId := messageId }).saveInflightTimeout messageId) hc
    { message with messageId := messageId } false
  rw [← hsame]
  simp only [sent, ← hid]
  exact hstored.trans hpublish

/-- A message that `dequeue` takes is sent; one of QoS 0 even twice, which does not count. -/
lemma sends_sendPolled (hc : w.endpoint.isConnected = true) (hr : w.endpoint.InRange)
    (message : MqttMessage) : Sends w (w.sendPolled message).2 (waiting [message]) := by
  by_cases hq : message.qos = .atMostOnce
  · have hnone : waiting [message] = [] := by simp [waiting, hq]
    rw [hnone]
    obtain ⟨w₀, hw₀, hcases⟩ := sendPolled_cases w message
    have hsends : Sends w w₀ [] := by
      rcases hw₀ with rfl | ⟨-, rfl⟩
      · exact Sends.refl _
      · exact sends_publish_qos0 hq false
    rcases hcases with h | ⟨messageId, h | h⟩
    · rw [h]
      exact hsends
    · rw [h]
      exact hsends.trans (Sends.of_eq rfl rfl)
    · rw [h]
      have hstored : Sends w ((w₀.putInflight messageId
          { message with messageId := messageId }).saveInflightTimeout messageId) [] :=
        hsends.trans (Sends.of_eq rfl rfl)
      exact hstored.trans (sends_publish_qos0 hq false)
  · rw [sendPolled_eq hc hr hq]
    exact sends_sent hc message

/-- `dequeue` sends the messages at the front of the queue and leaves the others. -/
lemma sends_dequeueFrom (hr : w.endpoint.InRange) (items : List MqttMessage) :
    ∃ taken rest, items = taken ++ rest ∧ (w.dequeueFrom items).queue.items = rest ∧
      Sends w (w.dequeueFrom items) (waiting taken) := by
  induction items generalizing w with
  | nil => exact ⟨[], [], rfl, rfl, Sends.of_eq rfl rfl⟩
  | cons message items ih =>
      simp only [dequeueFrom]
      split_ifs with hstop
      · exact ⟨[], message :: items, rfl, rfl, Sends.of_eq rfl rfl⟩
      simp only [Bool.or_eq_true, Bool.not_eq_true', not_or, Bool.not_eq_false,
        Bool.not_eq_true] at hstop
      have hpolled : Sends w (w.setQueue items) [] := Sends.of_eq rfl rfl
      have hsent := hpolled.trans (sends_sendPolled (w := w.setQueue items) hstop.1 hr message)
      have hkept := kept_sendPolled (w.setQueue items) message
      have hgoes := sendPolled_fst (w.setQueue items) hstop.1 hr message
      cases hsend : (w.setQueue items).sendPolled message with
      | mk goesOn w' =>
          rw [hsend] at hsent hkept hgoes
          obtain rfl : goesOn = true := hgoes
          obtain ⟨taken, rest, rfl, hqueue, hsends⟩ := ih (hkept.inRange hr)
          refine ⟨message :: taken, rest, rfl, hqueue, ?_⟩
          have hall := hsent.trans hsends
          rw [nil_append] at hall
          have hcons : waiting (message :: taken) = waiting [message] ++ waiting taken := by
            simp only [waiting, ← map_append, ← filter_append, singleton_append]
          rw [hcons]
          exact hall

lemma sends_dequeue (hr : w.endpoint.InRange) :
    ∃ taken, w.queue.items = taken ++ w.dequeue.queue.items ∧
      Sends w w.dequeue (waiting taken) := by
  obtain ⟨taken, rest, hitems, hrest, hsends⟩ := sends_dequeueFrom hr w.queue.items
  exact ⟨taken, by rw [hitems, ← hrest]; rfl, hsends⟩

/-! ### What happens to a new message -/

/-- A message that is enqueued comes last, and the first one of a full queue goes. -/
lemma enqueue_spec (hb : w.queue.Bounded) (message : MqttMessage) :
    (w.enqueue message).1 = MsgConst.ENQUEUE_SUCCEEDED ∧
      (w.enqueue message).2.queue = w.queue.append message ∧
      Sends w (w.enqueue message).2 [] := by
  have hadd : w.addExt message = (if w.queue.isFull then 1 else 0, w.queue.append message) := by
    cases kind with
    | transient => exact BoundedQueue.addExt_concurrent hb message
    | persistent => exact BoundedQueue.addExt_ignite hb message
  have hnonneg : (if w.queue.isFull then 1 else 0 : ℤ) ≥ 0 := by split_ifs <;> omega
  simp only [enqueue, hadd, if_pos hnonneg]
  exact ⟨trivial, trivial, Sends.of_eq rfl rfl⟩

/-- A message of QoS 1 or 2 that goes out at once finds an empty queue. -/
lemma handleMessage_spec (hb : w.queue.Bounded) (hr : w.endpoint.InRange) (message : MqttMessage) :
    (w.handleMessage message).1 = MsgConst.ENQUEUE_SUCCEEDED ∧
        (w.handleMessage message).2.queue = w.queue.append message ∧
        Sends w (w.handleMessage message).2 [] ∨
      (w.handleMessage message).1 ≠ MsgConst.ENQUEUE_SUCCEEDED ∧
        (w.handleMessage message).2.queue = w.queue ∧
        Sends w (w.handleMessage message).2 (waiting [message]) ∧
        (message.qos ≠ .atMostOnce → w.queue.items = []) := by
  simp only [handleMessage]
  split_ifs with hq hstore
  · exact Or.inl (enqueue_spec hb message)
  · refine Or.inr ⟨?_, publish_queue _ _ _, ?_, fun h => absurd hq h⟩
    · cases hc : w.endpoint.isConnected with
      | true =>
          rw [publish_of_connected w message false hc, if_pos hq]
          exact show (0 : ℤ) ≠ MsgConst.ENQUEUE_SUCCEEDED by decide
      | false =>
          rw [publish_of_not_connected w message false hc]
          exact show MsgConst.PUBLISH_ERROR ≠ MsgConst.ENQUEUE_SUCCEEDED by decide
    · have hnone : waiting [message] = [] := by simp [waiting, hq]
      rw [hnone]
      exact sends_publish_qos0 hq false
  · by_cases hwait : w.queue.items ≠ [] ∨ w.isInflightFull = true ∨ w.endpoint.isConnected = false
    · rw [inflight_of_wait hwait]
      exact Or.inl (enqueue_spec hb message)
    · simp only [not_or, not_not, Bool.not_eq_true, Bool.not_eq_false] at hwait
      obtain ⟨hempty, hfull, hc⟩ := hwait
      rw [inflight_of_room hempty hfull hc hr hq]
      have hrange := nextId_range hr
      refine Or.inr ⟨?_, sent_queue message, sends_sent hc message, fun _ => hempty⟩
      simp only [MsgConst.ENQUEUE_SUCCEEDED]
      omega

/-! ### The invariant -/

/-- What was sent and what waits make one list in the order of acceptance. -/
structure Inv (s : Session kind) : Prop where
  bounded : s.wrapper.queue.Bounded
  capacity : s.wrapper.queue.capacity = s.wrapper.config.sessionQueueMaxCapacity
  inRange : s.wrapper.endpoint.InRange
  qos : ∀ message ∈ s.wrapper.queue.items,
    s.wrapper.ledger.accepted[message.uid]? = some message.qos
  accepted : ∀ uid ∈ s.firsts, Accepted s.wrapper uid
  ordered : (s.firsts ++ waiting s.wrapper.queue.items).Pairwise (· < ·)
  covered : ∀ uid, Accepted s.wrapper uid →
    uid ∈ s.firsts ++ waiting s.wrapper.queue.items ∨ uid ∈ s.evicted

lemma Inv.inOrder {s : Session kind} (h : Inv s) : InOrder s where
  accepted := h.accepted
  ordered := (pairwise_append.1 h.ordered).1
  covered := by
    intro uid haccepted hnot
    rcases h.covered uid haccepted with hmem | hmem
    · exact Or.inl ((mem_append.1 hmem).resolve_left hnot)
    · exact Or.inr hmem

lemma mem_waiting {items : List MqttMessage} {uid : ℕ} :
    uid ∈ waiting items ↔ ∃ message ∈ items, message.qos ≠ .atMostOnce ∧ message.uid = uid := by
  simp [waiting, and_assoc]

lemma waiting_append (items items' : List MqttMessage) :
    waiting (items ++ items') = waiting items ++ waiting items' := by simp [waiting]

variable {firsts evicted : List ℕ}

/-- What is taken from the front of the queue and sent goes over to the first transmissions. -/
lemma Inv.take (h : Inv ⟨w, firsts, evicted⟩) {taken : List MqttMessage}
    (hitems : w.queue.items = taken ++ w'.queue.items) (hsends : Sends w w' (waiting taken))
    (hkept : Kept w w') : Inv ⟨w', firsts ++ waiting taken, evicted⟩ := by
  have hsplit : firsts ++ waiting w.queue.items =
      firsts ++ waiting taken ++ waiting w'.queue.items := by
    rw [hitems, waiting_append, append_assoc]
  have hqos : ∀ message ∈ w.queue.items, w'.ledger.accepted[message.uid]? = some message.qos := by
    intro message hmem
    rw [hsends.accepted]
    exact h.qos message hmem
  have haccepted : ∀ uid, Accepted w' uid ↔ Accepted w uid := by
    intro uid
    simp only [Accepted, hsends.accepted]
  obtain ⟨hbounded, hcapacity⟩ := hkept.queue h.bounded
  refine ⟨hbounded, ?_, hkept.inRange h.inRange, ?_, ?_, ?_, ?_⟩
  · show w'.queue.capacity = w'.config.sessionQueueMaxCapacity
    rw [hcapacity, hkept.config]
    exact h.capacity
  · intro message hmem
    exact hqos message (hitems ▸ mem_append_right _ hmem)
  · intro uid hmem
    rcases mem_append.1 hmem with hmem | hmem
    · exact (haccepted uid).2 (h.accepted uid hmem)
    · obtain ⟨message, htaken, hq, rfl⟩ := mem_waiting.1 hmem
      exact ⟨message.qos, hqos message (hitems ▸ mem_append_left _ htaken), hq⟩
  · exact hsplit ▸ h.ordered
  · intro uid hacc
    exact hsplit ▸ h.covered uid ((haccepted uid).1 hacc)

/-- A method that sends nothing and leaves the queue. -/
lemma Inv.quiet (h : Inv ⟨w, firsts, evicted⟩) (hqueue : w'.queue = w.queue)
    (hconfig : w'.config = w.config) (haccepted : w'.ledger.accepted = w.ledger.accepted)
    (hr : w'.endpoint.InRange) : Inv ⟨w', firsts, evicted⟩ := by
  have hsame : ∀ uid, Accepted w' uid ↔ Accepted w uid := by
    intro uid
    simp only [Accepted, haccepted]
  have hcapacity : w'.queue.capacity = w'.config.sessionQueueMaxCapacity := by
    rw [hqueue, hconfig]
    exact h.capacity
  refine ⟨hqueue ▸ h.bounded, hcapacity, hr, ?_, ?_, ?_, ?_⟩
  · intro message hmem
    rw [haccepted]
    exact h.qos message (hqueue ▸ hmem)
  · intro uid hmem
    exact (hsame uid).2 (h.accepted uid hmem)
  · exact hqueue ▸ h.ordered
  · intro uid hacc
    exact hqueue ▸ h.covered uid ((hsame uid).1 hacc)

lemma Inv.dequeue (h : Inv ⟨w, firsts, evicted⟩) : ∃ uids, Sends w w.dequeue uids ∧
    Inv ⟨w.dequeue, firsts ++ uids, evicted⟩ := by
  obtain ⟨taken, hitems, hsends⟩ := sends_dequeue h.inRange
  exact ⟨waiting taken, hsends, h.take hitems hsends (kept_publishCachedMessage w)⟩

/-! ### A new message -/

lemma Inv.lt_of_mem (h : Inv ⟨w, firsts, evicted⟩) {uid : ℕ}
    (hmem : uid ∈ firsts ++ waiting w.queue.items) : uid < w.ledger.accepted.length := by
  rcases mem_append.1 hmem with hmem | hmem
  · obtain ⟨qos, hqos, -⟩ := h.accepted uid hmem
    exact (List.getElem?_eq_some_iff.1 hqos).1
  · obtain ⟨message, hitem, -, rfl⟩ := mem_waiting.1 hmem
    exact (List.getElem?_eq_some_iff.1 (h.qos message hitem)).1

/-- The wrapper `w'` has accepted one message more than `w`. -/
lemma accepted_concat {qos : MqttQoS} (haccepted : w'.ledger.accepted = w.ledger.accepted ++ [qos])
    (uid : ℕ) : Accepted w' uid ↔
      Accepted w uid ∨ uid = w.ledger.accepted.length ∧ qos ≠ .atMostOnce := by
  simp only [Accepted, haccepted, getElem?_concat_eq_some]
  constructor
  · rintro ⟨qos', hqos | ⟨rfl, rfl⟩, hne⟩
    · exact Or.inl ⟨qos', hqos, hne⟩
    · exact Or.inr ⟨rfl, hne⟩
  · rintro (⟨qos', hqos, hne⟩ | ⟨rfl, hne⟩)
    · exact ⟨qos', Or.inl hqos, hne⟩
    · exact ⟨qos, Or.inr ⟨rfl, rfl⟩, hne⟩

/-- The new message comes after all that were accepted before it. -/
lemma Inv.ordered_concat (h : Inv ⟨w, firsts, evicted⟩) {l : List ℕ}
    (hsub : l <+ firsts ++ waiting w.queue.items)
    (huid : message.uid = w.ledger.accepted.length) :
    (l ++ waiting [message]).Pairwise (· < ·) := by
  rw [pairwise_append]
  refine ⟨h.ordered.sublist hsub, ?_, ?_⟩
  · exact (pairwise_singleton _ message.uid).sublist ((filter_sublist).map MqttMessage.uid)
  · intro uid hmem uid' hmem'
    obtain ⟨message', hitem, -, rfl⟩ := mem_waiting.1 hmem'
    rw [mem_singleton.1 hitem, huid]
    exact h.lt_of_mem (hsub.subset hmem)

/-- The new message waits behind the others, and the first one of a full queue goes. -/
lemma Inv.enqueue (h : Inv ⟨w, firsts, evicted⟩)
    (haccepted : w'.ledger.accepted = w.ledger.accepted ++ [message.qos])
    (huid : message.uid = w.ledger.accepted.length) (hqueue : w'.queue = w.queue.append message)
    (hconfig : w'.config = w.config) (hr : w'.endpoint.InRange) :
    Inv ⟨w', firsts, evicted ++ w.queue.evicted.map MqttMessage.uid⟩ := by
  obtain ⟨rest, hrest⟩ : ∃ rest, rest = if w.queue.isFull then w.queue.items.tail
    else w.queue.items := ⟨_, rfl⟩
  have hitems : w'.queue.items = rest ++ [message] := by
    rw [hqueue, hrest]
    rfl
  have hold : w.queue.evicted ++ rest = w.queue.items := by
    rw [hrest]
    exact w.queue.evicted_append
  have hsub : firsts ++ waiting rest <+ firsts ++ waiting w.queue.items := by
    rw [← hold, waiting_append]
    exact (sublist_append_right _ _).append_left firsts
  have hconcat := accepted_concat haccepted
  have hget : ∀ {uid : ℕ} {qos : MqttQoS}, w.ledger.accepted[uid]? = some qos →
      w'.ledger.accepted[uid]? = some qos := by
    intro uid qos hqos
    rw [haccepted]
    exact getElem?_concat_eq_some.2 (Or.inl hqos)
  have hcapacity : w'.queue.capacity = w'.config.sessionQueueMaxCapacity := by
    rw [hqueue, hconfig]
    exact h.capacity
  refine ⟨hqueue ▸ h.bounded.append message, hcapacity, hr, ?_, ?_, ?_, ?_⟩
  · intro m hmem
    rw [hitems] at hmem
    rcases mem_append.1 hmem with hmem | hmem
    · exact hget (h.qos m (hold ▸ mem_append_right _ hmem))
    · rw [mem_singleton.1 hmem, haccepted]
      exact getElem?_concat_eq_some.2 (Or.inr ⟨huid, rfl⟩)
  · intro uid hmem
    exact (hconcat uid).2 (Or.inl (h.accepted uid hmem))
  · show (firsts ++ waiting w'.queue.items).Pairwise (· < ·)
    rw [hitems, waiting_append, ← append_assoc]
    exact h.ordered_concat hsub huid
  · intro uid hacc
    show uid ∈ firsts ++ waiting w'.queue.items ∨ _
    rw [hitems, waiting_append]
    rcases (hconcat uid).1 hacc with hacc | ⟨rfl, hne⟩
    · rcases h.covered uid hacc with hmem | hmem
      · rw [← hold, waiting_append] at hmem
        simp only [mem_append] at hmem ⊢
        rcases hmem with hmem | hmem | hmem
        · exact Or.inl (Or.inl hmem)
        · obtain ⟨m, hm, -, rfl⟩ := mem_waiting.1 hmem
          exact Or.inr (Or.inr (mem_map_of_mem hm))
        · exact Or.inl (Or.inr (Or.inl hmem))
      · exact Or.inr (mem_append_left _ hmem)
    · refine Or.inl (mem_append_right _ (mem_append_right _ (mem_waiting.2 ?_)))
      exact ⟨message, mem_singleton_self message, hne, huid⟩

/-- The new message goes out at once. -/
lemma Inv.direct (h : Inv ⟨w, firsts, evicted⟩)
    (haccepted : w'.ledger.accepted = w.ledger.accepted ++ [message.qos])
    (huid : message.uid = w.ledger.accepted.length) (hqueue : w'.queue = w.queue)
    (hconfig : w'.config = w.config) (hempty : message.qos ≠ .atMostOnce → w.queue.items = [])
    (hr : w'.endpoint.InRange) : Inv ⟨w', firsts ++ waiting [message], evicted⟩ := by
  have hconcat := accepted_concat haccepted
  have hlist : firsts ++ waiting [message] ++ waiting w.queue.items =
      firsts ++ waiting w.queue.items ++ waiting [message] := by
    by_cases hq : message.qos = .atMostOnce
    · simp [waiting, hq]
    · simp [waiting, hempty hq]
  have hcapacity : w'.queue.capacity = w'.config.sessionQueueMaxCapacity := by
    rw [hqueue, hconfig]
    exact h.capacity
  refine ⟨hqueue ▸ h.bounded, hcapacity, hr, ?_, ?_, ?_, ?_⟩
  · intro m hmem
    rw [haccepted]
    exact getElem?_concat_eq_some.2 (Or.inl (h.qos m (hqueue ▸ hmem)))
  · intro uid hmem
    rw [hconcat]
    rcases mem_append.1 hmem with hmem | hmem
    · exact Or.inl (h.accepted uid hmem)
    · obtain ⟨m, hm, hne, rfl⟩ := mem_waiting.1 hmem
      obtain rfl := mem_singleton.1 hm
      exact Or.inr ⟨huid, hne⟩
  · show (firsts ++ waiting [message] ++ waiting w'.queue.items).Pairwise (· < ·)
    rw [hqueue, hlist]
    exact h.ordered_concat (Sublist.refl _) huid
  · intro uid hacc
    show uid ∈ firsts ++ waiting [message] ++ waiting w'.queue.items ∨ _
    rw [hqueue, hlist]
    rcases (hconcat uid).1 hacc with hacc | ⟨rfl, hne⟩
    · rcases h.covered uid hacc with hmem | hmem
      · exact Or.inl (mem_append_left _ hmem)
      · exact Or.inr hmem
    · refine Or.inl (mem_append_right _ (mem_waiting.2 ?_))
      exact ⟨message, mem_singleton_self message, hne, huid⟩

lemma Inv.publishMessage (h : Inv ⟨w, firsts, evicted⟩) (message : MqttMessage) (qos : MqttQoS) :
    Inv (Session.step ⟨w, firsts, evicted⟩ (.publishMessage message qos)) := by
  obtain ⟨copy, hcopy⟩ : ∃ copy, copy = w.copyMqttMessage message qos := ⟨_, rfl⟩
  have huid : copy.uid = w.ledger.accepted.length := by rw [hcopy]; rfl
  have hqos : copy.qos = qos := by rw [hcopy]; rfl
  obtain ⟨w₀, hw₀⟩ : ∃ w₀ : SessionWrapper kind, w₀ = { w with ledger := w.ledger.accept qos } :=
    ⟨_, rfl⟩
  have hendpoint : w₀.endpoint = w.endpoint := by rw [hw₀]
  have hqueue₀ : w₀.queue = w.queue := by rw [hw₀]
  have hledger : w₀.ledger.accepted = w.ledger.accepted ++ [copy.qos] := by
    rw [hw₀, hqos]
    rfl
  have hkept := kept_handleMessage w₀ copy
  have hconfig : (w₀.handleMessage copy).2.config = w.config := by
    rw [hkept.config, hw₀]
  have hr : (w₀.handleMessage copy).2.endpoint.InRange :=
    hkept.inRange (hendpoint ▸ h.inRange)
  have hstep : ∀ w' uids, w.publishMessage message qos = w' → Sends w₀ w' uids →
      FirstSending.firsts w (.publishMessage message qos) = uids := by
    rintro w' uids rfl hsends
    rw [← hsends.transmitted_drop, hendpoint]
    rfl
  have hpublish : w.publishMessage message qos =
      if (w₀.handleMessage copy).1 = MsgConst.ENQUEUE_SUCCEEDED then
        (w₀.handleMessage copy).2.dequeue else (w₀.handleMessage copy).2 := by
    rw [hw₀, hcopy]
    rfl
  have hevictions : evictions w (.publishMessage message qos) =
      if (w₀.handleMessage copy).1 = MsgConst.ENQUEUE_SUCCEEDED then
        w.queue.evicted.map MqttMessage.uid else [] := by
    rw [hw₀, hcopy]
    rfl
  rcases handleMessage_spec (hqueue₀ ▸ h.bounded) (hendpoint ▸ h.inRange) copy with
    ⟨hres, hqueue, hsends⟩ | ⟨hres, hqueue, hsends, hempty⟩
  · rw [if_pos hres] at hpublish hevictions
    have hinv := h.enqueue (hsends.accepted.trans hledger) huid (hqueue₀ ▸ hqueue) hconfig hr
    obtain ⟨uids, hrest, hinv⟩ := hinv.dequeue
    have hfirsts := hstep _ _ hpublish (hsends.trans hrest)
    simp only [Session.step, hevictions, hfirsts, nil_append]
    rw [show step w (.publishMessage message qos) = _ from hpublish]
    exact hinv
  · rw [if_neg hres] at hpublish hevictions
    have hinv := h.direct (hsends.accepted.trans hledger) huid (hqueue.trans hqueue₀) hconfig
      (fun hq => hqueue₀ ▸ hempty hq) hr
    have hfirsts := hstep _ _ hpublish hsends
    simp only [Session.step, hevictions, hfirsts, append_nil]
    rw [show step w (.publishMessage message qos) = _ from hpublish]
    exact hinv

/-! ### The other calls -/

/-- A call that accepts nothing and sends no message again. -/
lemma Inv.of_sends {op : Op} (hsends : Sends w (step w op) uids)
    (h : Inv ⟨step w op, firsts ++ uids, evicted⟩) (hresends : resends w op = false)
    (hevictions : evictions w op = []) : Inv (Session.step ⟨w, firsts, evicted⟩ op) := by
  have hfirsts : FirstSending.firsts w op = uids := by
    simp only [FirstSending.firsts, hresends, Bool.false_eq_true, if_false]
    exact hsends.transmitted_drop
  simp only [Session.step, hfirsts, hevictions, append_nil]
  exact h

/-- A call that changes nothing about the queue and then looks into it. -/
lemma Inv.quiet_dequeue (h : Inv ⟨w, firsts, evicted⟩) {op : Op}
    (hstep : step w op = w'.dequeue) (hqueue : w'.queue = w.queue)
    (hconfig : w'.config = w.config) (haccepted : w'.ledger.accepted = w.ledger.accepted)
    (hendpoint : w'.endpoint = w.endpoint) (hresends : resends w op = false)
    (hevictions : evictions w op = []) :
    Inv (Session.step ⟨w, firsts, evicted⟩ op) := by
  obtain ⟨uids, hsends, hinv⟩ :=
    (h.quiet hqueue hconfig haccepted (hendpoint ▸ h.inRange)).dequeue
  refine Inv.of_sends ?_ (hstep ▸ hinv) hresends hevictions
  rw [hstep]
  exact (Sends.of_eq hendpoint haccepted).trans hsends

/-- A call of which no packet is a first transmission. -/
lemma Inv.silent (h : Inv ⟨w, firsts, evicted⟩) {op : Op} (hqueue : (step w op).queue = w.queue)
    (hconfig : (step w op).config = w.config)
    (haccepted : (step w op).ledger.accepted = w.ledger.accepted)
    (hr : (step w op).endpoint.InRange) (hfirsts : FirstSending.firsts w op = [])
    (hevictions : evictions w op = []) : Inv (Session.step ⟨w, firsts, evicted⟩ op) := by
  simp only [Session.step, hfirsts, hevictions, append_nil]
  exact h.quiet hqueue hconfig haccepted hr

lemma firsts_of_written {op : Op}
    (h : ∃ n, (step w op).endpoint.written = w.endpoint.written.take n) :
    FirstSending.firsts w op = [] := by
  obtain ⟨n, hwritten⟩ := h
  have hdrop : (step w op).endpoint.written.drop w.endpoint.written.length = [] := by
    rw [hwritten]
    exact drop_eq_nil_of_le (length_take_le' _ _)
  simp only [FirstSending.firsts, hdrop]
  exact ite_self _

lemma Inv.retry (h : Inv ⟨w, firsts, evicted⟩) (messageId : ℤ) :
    Inv (Session.step ⟨w, firsts, evicted⟩ (.retry messageId)) := by
  cases hget : w.inflights.get messageId with
  | none =>
      have hstep : step w (.retry messageId) = w := by simp only [step, SessionWrapper.retry, hget]
      have hr : (step w (.retry messageId)).endpoint.InRange := by
        rw [hstep]
        exact h.inRange
      refine h.silent (by rw [hstep]) (by rw [hstep]) (by rw [hstep]) hr ?_ rfl
      exact firsts_of_written ⟨w.endpoint.written.length, by rw [hstep, take_length]⟩
  | some message =>
      by_cases hlast : message.retry ≥ w.config.sessionInflightMaxRetries
      · have hresends : resends w (.retry messageId) = false := by
          simp only [resends, hget, decide_eq_false_iff_not]
          omega
        have hstep : step w (.retry messageId) =
            ({ w with ledger := w.ledger.discard [message] 1 }.removeInflight
              messageId).dequeue := by
          simp only [step, SessionWrapper.retry, hget, if_pos hlast]
          rfl
        exact h.quiet_dequeue hstep rfl rfl rfl rfl hresends rfl
      · have hstep : step w (.retry messageId) = (w.retryInflight message).2 := by
          simp only [step, SessionWrapper.retry, hget, if_neg hlast]
        have hkept := kept_retryInflight w message
        refine h.silent ?_ ?_ ?_ ?_ ?_ rfl
        · rw [hstep, retryInflight_queue]
        · rw [hstep, hkept.config]
        · rw [hstep, retryInflight_ledger]
        · exact hstep ▸ hkept.inRange h.inRange
        · refine if_pos ?_
          simp only [resends, hget, decide_eq_true_eq]
          omega

lemma Inv.receivePubrec (h : Inv ⟨w, firsts, evicted⟩) (messageId : ℤ) :
    Inv (Session.step ⟨w, firsts, evicted⟩ (.receivePubrec messageId)) := by
  have hsame : (step w (.receivePubrec messageId)).queue = w.queue ∧
      (step w (.receivePubrec messageId)).config = w.config ∧
      (step w (.receivePubrec messageId)).ledger = w.ledger ∧
      (step w (.receivePubrec messageId)).endpoint = w.endpoint := by
    simp only [step, SessionWrapper.receivePubrec]
    split
    · exact ⟨rfl, rfl, rfl, rfl⟩
    · exact ⟨rfl, rfl, rfl, rfl⟩
  obtain ⟨hqueue, hconfig, hledger, hendpoint⟩ := hsame
  refine h.silent hqueue hconfig (by rw [hledger]) (hendpoint ▸ h.inRange) ?_ rfl
  exact firsts_of_written ⟨w.endpoint.written.length, by rw [hendpoint, take_length]⟩

/-- A new connection of a persistent client. -/
lemma Inv.connectAgain {w : SessionWrapper .persistent} (h : Inv ⟨w, firsts, evicted⟩) {op : Op}
    (hop : op = .refreshEndpoint ∨ op = .reopen) :
    Inv (Session.step ⟨w, firsts, evicted⟩ op) := by
  have hopen : openQueue w.config.sessionQueueMaxCapacity w.queue.items = w.queue := by
    have hfits : w.config.sessionQueueMaxCapacity > 0 →
        (w.queue.items.length : ℤ) ≤ w.config.sessionQueueMaxCapacity := by
      rw [show w.config.sessionQueueMaxCapacity = w.queue.capacity from h.capacity.symm]
      exact h.bounded
    simp only [openQueue]
    rw [if_neg (by omega)]
    exact congrArg (BoundedQueue.mk · w.queue.items) h.capacity.symm
  have hr := MqttEndpoint.inRange_create (w.endpoint.id + 1) w.thisClientId false
  rcases hop with rfl | rfl
  · refine h.silent rfl rfl rfl hr ?_ rfl
    exact firsts_of_written ⟨0, rfl⟩
  · refine h.silent hopen rfl rfl hr ?_ rfl
    exact firsts_of_written ⟨0, rfl⟩

/-- Every call keeps the invariant. -/
lemma Inv.step {s : Session kind} (h : Inv s) (op : Op) : Inv (s.step op) := by
  obtain ⟨w, firsts, evicted⟩ := s
  cases op with
  | publishMessage message qos => exact h.publishMessage message qos
  | receivePuback messageId => exact h.quiet_dequeue rfl rfl rfl rfl rfl rfl rfl
  | receivePubrec messageId => exact h.receivePubrec messageId
  | receivePubcomp messageId => exact h.quiet_dequeue rfl rfl rfl rfl rfl rfl rfl
  | retry messageId => exact h.retry messageId
  | publishCachedMessage => exact h.quiet_dequeue rfl rfl rfl rfl rfl rfl rfl
  | connectivity isConnected =>
      refine h.silent rfl rfl rfl h.inRange ?_ rfl
      exact firsts_of_written ⟨w.endpoint.written.length, (take_length).symm⟩
  | refreshEndpoint =>
      cases kind with
      | transient =>
          refine h.silent rfl rfl rfl h.inRange ?_ rfl
          exact firsts_of_written ⟨w.endpoint.written.length, (take_length).symm⟩
      | persistent => exact h.connectAgain (Or.inl rfl)
  | reopen =>
      cases kind with
      | transient =>
          refine h.silent rfl rfl rfl h.inRange ?_ rfl
          exact firsts_of_written ⟨w.endpoint.written.length, (take_length).symm⟩
      | persistent => exact h.connectAgain (Or.inr rfl)

lemma inv_new (config : Config) (id : ℕ) (clientIdentifier : Str) (isCleanSession : Bool)
    (kind : SessionKind) :
    Inv (Session.new config (.create id clientIdentifier isCleanSession) kind) := by
  have hr := MqttEndpoint.inRange_create id clientIdentifier isCleanSession
  cases kind with
  | transient =>
      refine ⟨fun hpos => ?_, rfl, hr, ?_, ?_, Pairwise.nil, ?_⟩
      · have hpos : 0 < config.sessionQueueMaxCapacity := hpos
        exact Int.le_of_lt hpos
      · intro message hmem
        exact absurd hmem not_mem_nil
      · intro uid hmem
        exact absurd hmem not_mem_nil
      · rintro uid ⟨qos, hqos, -⟩
        exact absurd hqos (by simp [Session.new, FirstSending.new, TransientSessionWrapper.new,
          Ledger.empty])
  | persistent =>
      have hitems : (openQueue config.sessionQueueMaxCapacity []).items = [] := by
        simp [openQueue]
      refine ⟨openQueue_bounded _ _, rfl, hr, ?_, ?_, ?_, ?_⟩
      · intro message hmem
        exact absurd (hitems ▸ hmem) not_mem_nil
      · intro uid hmem
        exact absurd hmem not_mem_nil
      · show (waiting (openQueue config.sessionQueueMaxCapacity []).items).Pairwise (· < ·)
        rw [hitems]
        exact Pairwise.nil
      · rintro uid ⟨qos, hqos, -⟩
        exact absurd hqos (by simp [Session.new, FirstSending.new, PersistentSessionWrapper.new,
          Ledger.empty])

/-- Whatever is called in whatever order, each message of QoS 1 or 2 is sent for the first time
once at most and in the order of acceptance, and one that was never sent waits in the queue or was
the first of a full one. -/
theorem inOrder_run (kind : SessionKind) (config : Config) (id : ℕ) (clientIdentifier : Str)
    (isCleanSession : Bool) (ops : List Op) :
    InOrder (ops.foldl Session.step
      (Session.new config (.create id clientIdentifier isCleanSession) kind)) := by
  have hrun : ∀ s : Session kind, Inv s → Inv (ops.foldl Session.step s) := by
    induction ops with
    | nil => exact fun s hs => hs
    | cons op ops ih => exact fun s hs => ih _ (hs.step op)
  exact (hrun _ (inv_new config id clientIdentifier isCleanSession kind)).inOrder

end FirstSending

end Stuart
