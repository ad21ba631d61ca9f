/-
What becomes of a message that is handed to a session.

It is transmitted at once, or it is put behind the messages that wait in the queue, from the front of
which the next ones may be transmitted then; only a message of QoS 0 for a connection that is lost is
given up (`gets_publishMessage`).  All of it is said about the packets on the endpoint, the queue and
the inflight messages.
-/
import Stuart.Sessions.FirstSending

namespace Stuart

open List

namespace SessionWrapper

/-- What a PUBLISH carries, and the number of the message. -/
structure Content where
  uid : ℕ
  topic : Str
  payload : List UInt8
  qos : MqttQoS
deriving DecidableEq

def contentOf (message : MqttMessage) : Content :=
  ⟨message.uid, message.topic, message.payload, message.qos⟩

/-- The content of a PUBLISH. -/
def shown : MqttPacket → Option Content
  | .publish _ uid topic payload qos _ _ => some ⟨uid, topic, payload, qos⟩
  | .pubrel _ => none

variable {kind : SessionKind} {w w' w'' : SessionWrapper kind} {message : MqttMessage}
  {messages messages' : List MqttMessage}

/-- From `w` to `w'` PUBLISH packets of these messages are written, and no other packets. -/
def Transmits (w w' : SessionWrapper kind) (messages : List MqttMessage) : Prop :=
  ∃ packets, w'.endpoint.written = w.endpoint.written ++ packets ∧
    packets.map shown = messages.map fun message => some (contentOf message)

/-- What `dequeue` writes for the messages it takes: those of QoS 0 twice. -/
def polled (messages : List MqttMessage) : List MqttMessage :=
  messages.flatMap fun message =>
    if message.qos = .atMostOnce then [message, message] else [message]

lemma polled_cons (message : MqttMessage) (messages : List MqttMessage) :
    polled (message :: messages) = polled [message] ++ polled messages := by
  simp [polled]

/-- The message `message` comes to the session. -/
inductive Gets (w w' : SessionWrapper kind) (message : MqttMessage) : Prop where
  /-- it is transmitted; a message of QoS 1 or 2 overtakes no other one -/
  | transmitted (hqueue : w'.queue = w.queue) (htransmits : Transmits w w' [message])
      (hempty : message.qos ≠ .atMostOnce → w.queue.items = [])
  /-- it is queued, and the first messages that wait are transmitted -/
  | queued (taken : List MqttMessage)
      (hqueue : (w.queue.append message).items = taken ++ w'.queue.items)
      (htransmits : Transmits w w' (polled taken))
  | lost (hqos : message.qos = .atMostOnce) (hc : w.endpoint.isConnected = false)
      (hqueue : w'.queue = w.queue) (htransmits : Transmits w w' [])

/-- Copies of a message with these QoS values come to the session one after the other. -/
inductive GetsAll (message : MqttMessage) :
    SessionWrapper kind → SessionWrapper kind → List MqttQoS → Prop where
  | nil (w : SessionWrapper kind) : GetsAll message w w []
  | cons {w w' w'' : SessionWrapper kind} {qos : MqttQoS} {rest : List MqttQoS}
      (h : Gets w w' (w.copyMqttMessage message qos)) (hrest : GetsAll message w' w'' rest) :
      GetsAll message w w'' (qos :: rest)

/-! ### Transmissions -/

lemma Transmits.of_eq (h : w'.endpoint = w.endpoint) : Transmits w w' [] :=
  ⟨[], by rw [h, append_nil], rfl⟩

lemma Transmits.trans (h : Transmits w w' messages) (h' : Transmits w' w'' messages') :
    Transmits w w'' (messages ++ messages') := by
  obtain ⟨packets, hwritten, hshown⟩ := h
  obtain ⟨packets', hwritten', hshown'⟩ := h'
  refine ⟨packets ++ packets', ?_, ?_⟩
  · rw [hwritten', hwritten, append_assoc]
  · rw [map_append, map_append, hshown, hshown']

lemma transmits_publish (hc : w.endpoint.isConnected = true) (message : MqttMessage)
    (everPublished : Bool) : Transmits w (w.publish message everPublished).2 [message] := by
  rw [publish_of_connected w message everPublished hc]
  exact ⟨_, rfl, rfl⟩

lemma transmits_sent (hc : w.endpoint.isConnected = true) (message : MqttMessage) :
    Transmits w (w.sent message) [message] :=
  transmits_publish (w := (w.putInflight (nextId w.endpoint.lastMessageId)
    { message with messageId := nextId w.endpoint.lastMessageId }).saveInflightTimeout
      (nextId w.endpoint.lastMessageId)) hc _ false

/-- A message that `dequeue` takes is transmitted, one of QoS 0 twice. -/
lemma transmits_sendPolled (hc : w.endpoint.isConnected = true) (hr : w.endpoint.InRange)
    (message : MqttMessage) : Transmits w (w.sendPolled message).2 (polled [message]) := by
  by_cases hq : message.qos = .atMostOnce
  · have hfirst := transmits_publish hc message false
    have hkept := kept_publish w message false
    have hc' : (w.publish message false).2.endpoint.isConnected = true :=
      hkept.isConnected.trans hc
    have hpolled : polled [message] = [message] ++ [message] := by simp [polled, hq]
    rw [sendPolled_of_connected w hc hr, hpolled]
    simp only [hq, if_true]
    exact hfirst.trans (transmits_sent hc' message)
  · rw [sendPolled_eq hc hr hq]
    have hpolled : polled [message] = [message] := by simp [polled, hq]
    rw [hpolled]
    exact transmits_sent hc message

/-- `dequeue` transmits the messages at the front of the queue and leaves the others, by induction
on the queue. -/
lemma transmits_dequeueFrom (hr : w.endpoint.InRange) (items : List MqttMessage) :
    ∃ taken, items = taken ++ (w.dequeueFrom items).queue.items ∧
      Transmits w (w.dequeueFrom items) (polled taken) := by
  induction items generalizing w with
  | nil => exact ⟨[], rfl, .of_eq rfl⟩
  | cons message items ih =>
      simp only [dequeueFrom]
      split_ifs with hstop
      · exact ⟨[], rfl, .of_eq rfl⟩
      simp only [Bool.or_eq_true, Bool.not_eq_true', not_or, Bool.not_eq_false,
        Bool.not_eq_true] at hstop
      have hsent := transmits_sendPolled (w := w.setQueue items) hstop.1 hr message
      have hkept := kept_sendPolled (w.setQueue items) message
      have hgoes := sendPolled_fst (w.setQueue items) hstop.1 hr message
      cases hsend : (w.setQueue items).sendPolled message with
      | mk goesOn w' =>
          rw [hsend] at hsent hkept hgoes
          obtain rfl : goesOn = true := hgoes
          obtain ⟨taken, hitems, htransmits⟩ := ih (hkept.inRange hr)
          refine ⟨message :: taken, congrArg (message :: ·) hitems, ?_⟩
          rw [polled_cons]
          exact hsent.trans htransmits

/-! ### A new message -/

lemma gets_enqueue (hb : w.queue.Bounded) (hr : w.endpoint.InRange) (message : MqttMessage) :
    Gets w (w.enqueue message).2.dequeue message := by
  obtain ⟨-, hqueue, -⟩ := FirstSending.enqueue_spec hb message
  have hend : (w.enqueue message).2.endpoint = w.endpoint := by
    simp only [enqueue]
    split_ifs <;> rfl
  obtain ⟨taken, hitems, htransmits⟩ :=
    transmits_dequeueFrom (w := (w.enqueue message).2) (hend ▸ hr) (w.enqueue message).2.queue.items
  refine .queued taken ?_ ?_
  · rw [← hqueue]
    exact hitems
  · exact (Transmits.of_eq hend).trans htransmits

/-- The message is queued, or `handleMessage` has done what there is to do. -/
lemma gets_handleMessage (hb : w.queue.Bounded) (hr : w.endpoint.InRange) (message : MqttMessage) :
    (w.handleMessage message).1 = MsgConst.ENQUEUE_SUCCEEDED ∧
        w.handleMessage message = w.enqueue message ∨
      (w.handleMessage message).1 ≠ MsgConst.ENQUEUE_SUCCEEDED ∧
        Gets w (w.handleMessage message).2 message := by
  have henqueue := (FirstSending.enqueue_spec hb message).1
  simp only [handleMessage]
  split_ifs with hq hstore
  · exact Or.inl ⟨henqueue, rfl⟩
  · -- a transmission does not return the code of a queued message
    cases hc : w.endpoint.isConnected with
    | true =>
        refine Or.inr ⟨?_, .transmitted (publish_queue _ _ _) (transmits_publish hc message false)
          fun hne => absurd hq hne⟩
        rw [publish_of_connected w message false hc, if_pos hq]
        exact show (0 : ℤ) ≠ MsgConst.ENQUEUE_SUCCEEDED by decide
    | false =>
        rw [publish_of_not_connected w message false hc]
        have hres : MsgConst.PUBLISH_ERROR ≠ MsgConst.ENQUEUE_SUCCEEDED := by decide
        exact Or.inr ⟨hres, .lost hq hc rfl (.of_eq rfl)⟩
  · by_cases hwait : w.queue.items ≠ [] ∨ w.isInflightFull = true ∨ w.endpoint.isConnected = false
    · rw [inflight_of_wait hwait]
      exact Or.inl ⟨henqueue, rfl⟩
    · simp only [not_or, not_not, Bool.not_eq_true, Bool.not_eq_false] at hwait
      obtain ⟨hempty, hfull, hc⟩ := hwait
      have hrange := nextId_range hr
      rw [inflight_of_room hempty hfull hc hr hq]
      refine Or.inr ⟨?_, .transmitted (sent_queue message) (transmits_sent hc message)
        fun _ => hempty⟩
      simp only [MsgConst.ENQUEUE_SUCCEEDED]
      omega

/-- **What becomes of a message that is handed to a session.** -/
lemma gets_publishMessage (hb : w.queue.Bounded) (hr : w.endpoint.InRange) (message : MqttMessage)
    (qos : MqttQoS) : Gets w (w.publishMessage message qos) (w.copyMqttMessage message qos) := by
  obtain ⟨w₀, hw₀⟩ : ∃ w₀ : SessionWrapper kind, w₀ = { w with ledger := w.ledger.accept qos } :=
    ⟨_, rfl⟩
  have hb₀ : w₀.queue.Bounded := hw₀ ▸ hb
  have hr₀ : w₀.endpoint.InRange := hw₀ ▸ hr
  have hgets : ∀ w', Gets w₀ w' (w.copyMqttMessage message qos) →
      Gets w w' (w.copyMqttMessage message qos) := by
    rintro w' (⟨hqueue, htransmits, hempty⟩ | ⟨taken, hqueue, htransmits⟩ |
      ⟨hqos, hc, hqueue, htransmits⟩)
    all_goals
      subst hw₀
    · exact .transmitted hqueue htransmits hempty
    · exact .queued taken hqueue htransmits
    · exact .lost hqos hc hqueue htransmits
  simp only [publishMessage, ← hw₀]
  rcases gets_handleMessage hb₀ hr₀ (w.copyMqttMessage message qos) with ⟨hres, heq⟩ | ⟨hres, h⟩
  · rw [if_pos hres, heq]
    exact hgets _ (gets_enqueue hb₀ hr₀ _)
  · rw [if_neg hres]
    exact hgets _ h

end SessionWrapper

end Stuart
