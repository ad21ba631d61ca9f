/-
A rule for what the methods of a wrapper keep.

An invariant that speaks of the inflight messages, of the packets and of the messages that wait
looks at the same few moments in every method: a message waits, the first one that waits is stored
and sent, a message of QoS 0 is sent at once, a message is given up.  `MethodRule` collects what
has to be shown at these moments; the lemmas below carry it through the methods.  The messages that
wait are an argument of the invariant, since `dequeue` polls them before it sends them.
-/
import Stuart.Sessions.SessionFrame

namespace Stuart

open List Lib

namespace SessionWrapper

variable {kind : SessionKind}

/-- The wrappers differ at most in the queue, the timers and what was acknowledged or given up. -/
structure Same (w w' : SessionWrapper kind) : Prop where
  config : w'.config = w.config
  endpoint : w'.endpoint = w.endpoint
  inflights : w'.inflights = w.inflights
  accepted : w'.ledger.accepted = w.ledger.accepted

/-- What an invariant of a wrapper and the messages that wait has to satisfy.  `Ready` says of a
message that it may be handled next. -/
structure MethodRule (I : SessionWrapper kind → List MqttMessage → Prop)
    (Ready : SessionWrapper kind → List MqttMessage → MqttMessage → Prop) : Prop where
  same : ∀ {w w' items}, I w items → Same w w' → I w' items
  /-- messages that waited go away -/
  sublist : ∀ {w items items'}, I w items → items' <+ items → I w items'
  /-- an inflight message is acknowledged or given up -/
  remove : ∀ {w items} messageId, I w items → I (w.removeInflight messageId) items
  /-- the PUBREC of an inflight message -/
  received : ∀ {w items messageId message}, I w items →
    w.inflights.get messageId = some message →
    I (w.putInflight messageId { message with status := MsgConst.PUBREC_STATUS }) items
  /-- the first message that waits is stored and sent -/
  sent : ∀ {w message items}, I w (message :: items) → w.endpoint.isConnected = true →
    w.endpoint.InRange → message.qos ≠ .atMostOnce → I (w.sent message) items
  /-- a message of QoS 0 that waits is sent, and then stored and sent -/
  sentTwice : ∀ {w message items}, I w (message :: items) → w.endpoint.isConnected = true →
    w.endpoint.InRange → message.qos = .atMostOnce →
    I ((w.publish message false).2.sent message) items
  inv : ∀ {w items message}, Ready w items message → I w items
  /-- a message of QoS 0 waits only if others do -/
  wait : ∀ {w items message}, Ready w items message →
    (message.qos = .atMostOnce → w.config.sessionQueueStoreQos0 = true ∧ items ≠ []) →
    I w (items ++ [message])
  /-- a message of QoS 0 is sent at once -/
  direct : ∀ {w items message}, Ready w items message → w.endpoint.isConnected = true →
    message.qos = .atMostOnce → I (w.publish message false).2 items

namespace MethodRule

variable {I : SessionWrapper kind → List MqttMessage → Prop}
  {Ready : SessionWrapper kind → List MqttMessage → MqttMessage → Prop}
  {w : SessionWrapper kind} {items : List MqttMessage} {message : MqttMessage}

lemma polled (R : MethodRule I Ready) (h : I w (message :: items))
    (hc : w.endpoint.isConnected = true) (hr : w.endpoint.InRange) :
    I (w.sendPolled message).2 items := by
  rw [sendPolled_of_connected w hc hr]
  by_cases hq : message.qos = .atMostOnce
  · rw [if_pos hq]
    exact R.sentTwice h hc hr hq
  · rw [if_neg hq]
    exact R.sent h hc hr hq

/-- The loop of `dequeue`, by induction on what is left of the queue. -/
lemma dequeueFrom (R : MethodRule I Ready) (h : I w items) (hr : w.endpoint.InRange) :
    I (w.dequeueFrom items) (w.dequeueFrom items).queue.items := by
  induction items generalizing w with
  | nil => exact R.same h ⟨rfl, rfl, rfl, rfl⟩
  | cons message rest ih =>
      simp only [SessionWrapper.dequeueFrom]
      by_cases hstop : (!w.endpoint.isConnected || w.isInflightFull) = true
      · rw [if_pos hstop]
        exact R.same h ⟨rfl, rfl, rfl, rfl⟩
      · rw [if_neg hstop]
        have hc : w.endpoint.isConnected = true := by simp_all
        have hset : I (w.setQueue rest) (message :: rest) := R.same h ⟨rfl, rfl, rfl, rfl⟩
        have hpolled := R.polled hset hc hr
        have hrange := (kept_sendPolled (w.setQueue rest) message).inRange hr
        have hgoes := sendPolled_fst (w.setQueue rest) hc hr message
        cases hsend : (w.setQueue rest).sendPolled message with
        | mk goesOn w' =>
            rw [hsend] at hpolled hrange hgoes
            obtain rfl : goesOn = true := hgoes
            exact ih hpolled hrange

lemma publishCachedMessage (R : MethodRule I Ready) (h : I w w.queue.items)
    (hr : w.endpoint.InRange) :
    I w.publishCachedMessage w.publishCachedMessage.queue.items := R.dequeueFrom h hr

lemma enqueue (R : MethodRule I Ready) (h : Ready w w.queue.items message)
    (hq : message.qos = .atMostOnce →
      w.config.sessionQueueStoreQos0 = true ∧ w.queue.items ≠ []) :
    I (w.enqueue message).2 (w.enqueue message).2.queue.items := by
  simp only [SessionWrapper.enqueue]
  by_cases hadded : (w.addExt message).1 ≥ 0
  · rw [if_pos hadded]
    exact R.same (R.sublist (R.wait h hq) (addExt_sublist w message)) ⟨rfl, rfl, rfl, rfl⟩
  · rw [if_neg hadded]
    exact R.inv h

lemma inflight (R : MethodRule I Ready) (h : Ready w w.queue.items message)
    (hr : w.endpoint.InRange) (hq : message.qos ≠ .atMostOnce) :
    I (w.inflight message).2 (w.inflight message).2.queue.items := by
  by_cases hwait : w.queue.items ≠ [] ∨ w.isInflightFull = true ∨ w.endpoint.isConnected = false
  · rw [inflight_of_wait hwait]
    exact R.enqueue h fun hzero => absurd hzero hq
  · simp only [ne_eq, not_or, not_not, Bool.not_eq_true, Bool.not_eq_false] at hwait
    obtain ⟨hempty, hfull, hc⟩ := hwait
    have hone := R.wait h fun hzero => absurd hzero hq
    rw [hempty, nil_append] at hone
    rw [inflight_of_room hempty hfull hc hr hq]
    show I (w.sent message) (w.sent message).queue.items
    rw [sent_queue, hempty]
    exact R.sent hone hc hr hq

lemma handleMessage (R : MethodRule I Ready) (h : Ready w w.queue.items message)
    (hr : w.endpoint.InRange) :
    I (w.handleMessage message).2 (w.handleMessage message).2.queue.items := by
  simp only [SessionWrapper.handleMessage]
  split_ifs with hq hstore
  · simp only [Bool.and_eq_true, Bool.not_eq_true', isEmpty_eq_false_iff] at hstore
    exact R.enqueue h fun _ => hstore
  · rw [publish_queue]
    by_cases hc : w.endpoint.isConnected = true
    · exact R.direct h hc hq
    · rw [publish_of_not_connected w message false (by simpa using hc)]
      exact R.inv h
  · exact R.inflight h hr hq

lemma publishMessage (R : MethodRule I Ready) {qos : MqttQoS} (hr : w.endpoint.InRange)
    (h : Ready { w with ledger := w.ledger.accept qos } w.queue.items
      (w.copyMqttMessage message qos)) :
    I (w.publishMessage message qos) (w.publishMessage message qos).queue.items := by
  have hhandle := R.handleMessage (w := { w with ledger := w.ledger.accept qos }) h hr
  unfold SessionWrapper.publishMessage
  dsimp only
  split_ifs
  · exact R.publishCachedMessage hhandle ((kept_handleMessage _ _).inRange hr)
  · exact hhandle

lemma receiveFinal (R : MethodRule I Ready) (h : I w w.queue.items) (hr : w.endpoint.InRange)
    (messageId : ℤ) : I (w.receiveFinal messageId) (w.receiveFinal messageId).queue.items := by
  refine R.publishCachedMessage ?_ hr
  exact R.same (R.remove messageId h) ⟨rfl, rfl, rfl, rfl⟩

lemma receivePubrec (R : MethodRule I Ready) (h : I w w.queue.items) (messageId : ℤ) :
    I (w.receivePubrec messageId) (w.receivePubrec messageId).queue.items := by
  simp only [SessionWrapper.receivePubrec]
  cases hget : w.inflights.get messageId with
  | none => exact h
  | some message => exact R.received h hget

/-- A message that `retry` gives up. -/
lemma giveUp (R : MethodRule I Ready) (h : I w w.queue.items) (hr : w.endpoint.InRange)
    (messageId : ℤ) (message : MqttMessage) :
    let w' := { w with ledger := w.ledger.discard [message] 1 }.removeInflight messageId
    I w'.publishCachedMessage w'.publishCachedMessage.queue.items :=
  R.publishCachedMessage (R.same (R.remove messageId h) ⟨rfl, rfl, rfl, rfl⟩) hr

end MethodRule

end SessionWrapper

end Stuart
