/-
What the methods of a session wrapper keep.

A method sends through the endpoint, but it neither opens nor closes it; the queue keeps its
capacity and its bound; and every inflight message is stored under its own packet id.  These facts
compose, so that each method has one lemma about them.  The last part says what `dequeue` reaches
on a connected endpoint, and what `open` does before the endpoint is accepted.
-/
import Stuart.Sessions.SessionWrapper

namespace Stuart

open List Lib

/-- What sending through an endpoint leaves alone. -/
def MqttEndpoint.link (e : MqttEndpoint) : ℕ × Str × Bool × Bool × Bool :=
  (e.id, e.clientIdentifier, e.isCleanSession, e.isConnected, e.isClosed)

namespace Inflights

variable {kind : SessionKind} {m : Inflights kind}

/-- A message under a key that is there already is always stored. -/
lemma get_put_of_get {key : ℤ} (h : m.get key ≠ none) (value : MqttMessage) (key' : ℤ) :
    (m.put key value).get key' = if key' = key then some value else m.get key' := by
  cases kind with
  | transient => exact PlainMap.get_put m key key' value
  | persistent =>
      have hput := BoundedIgniteMapUnsafe.put_of_accepts m (Or.inl h) value
      exact (congrArg (fun m' => BoundedIgniteMapUnsafe.get m' key') hput).trans
        (BoundedIgniteMapUnsafe.get_insert m key key' value)

lemma get_remove_self (m : Inflights kind) (key : ℤ) : (m.remove key).get key = none := by
  cases kind with
  | transient => exact PlainMap.get_remove_self m key
  | persistent => exact PlainMap.get_remove_self (BoundedIgniteMapUnsafe.cache m) key

/-- Every message is stored under its packet id. -/
def Keyed (m : Inflights kind) : Prop :=
  ∀ messageId message, m.get messageId = some message → message.messageId = messageId

lemma Keyed.put (h : m.Keyed) {messageId : ℤ} {message : MqttMessage}
    (hid : message.messageId = messageId) : (m.put messageId message).Keyed := by
  intro key value hget
  rcases get_put hget with ⟨rfl, rfl⟩ | hget
  · exact hid
  · exact h key value hget

lemma Keyed.remove (h : m.Keyed) (messageId : ℤ) : (m.remove messageId).Keyed :=
  fun key value hget => h key value (get_remove hget)

end Inflights

namespace SessionWrapper

variable {kind : SessionKind}

/-- What every method keeps of a wrapper. -/
structure Kept (w w' : SessionWrapper kind) : Prop where
  config : w'.config = w.config
  thisClientId : w'.thisClientId = w.thisClientId
  link : w'.endpoint.link = w.endpoint.link
  inRange : w.endpoint.InRange → w'.endpoint.InRange
  queue : w.queue.Bounded → w'.queue.Bounded ∧ w'.queue.capacity = w.queue.capacity
  keyed : w.inflights.Keyed → w'.inflights.Keyed

variable {w w' w'' : SessionWrapper kind}

lemma Kept.refl (w : SessionWrapper kind) : Kept w w :=
  ⟨rfl, rfl, rfl, id, fun h => ⟨h, rfl⟩, id⟩

lemma Kept.trans (h : Kept w w') (h' : Kept w' w'') : Kept w w'' where
  config := h'.config.trans h.config
  thisClientId := h'.thisClientId.trans h.thisClientId
  link := h'.link.trans h.link
  inRange := fun hr => h'.inRange (h.inRange hr)
  queue := by
    intro hb
    obtain ⟨hb₁, hcap₁⟩ := h.queue hb
    obtain ⟨hb₂, hcap₂⟩ := h'.queue hb₁
    exact ⟨hb₂, hcap₂.trans hcap₁⟩
  keyed := fun hk => h'.keyed (h.keyed hk)

lemma Kept.isConnected (h : Kept w w') : w'.endpoint.isConnected = w.endpoint.isConnected :=
  congrArg (fun link => link.2.2.2.1) h.link

/-! ### The steps of a method -/

variable (w)

lemma kept_publish (message : MqttMessage) (everPublished : Bool) :
    Kept w (w.publish message everPublished).2 := by
  simp only [publish, MqttEndpoint.publish]
  by_cases hc : w.endpoint.isConnected = true
  · rw [if_pos hc]
    refine ⟨rfl, rfl, rfl, fun hr => ?_, fun h => ⟨h, rfl⟩, id⟩
    have hrange := nextId_range hr
    exact ⟨show 0 ≤ nextId w.endpoint.lastMessageId by omega, hrange.2⟩
  · rw [if_neg hc]
    exact Kept.refl w

lemma kept_publishRelease (messageId : ℤ) : Kept w (w.publishRelease messageId).2 := by
  simp only [publishRelease, MqttEndpoint.publishRelease]
  by_cases hc : w.endpoint.isConnected = true
  · rw [if_pos hc]
    exact ⟨rfl, rfl, rfl, id, fun h => ⟨h, rfl⟩, id⟩
  · rw [if_neg hc]
    exact Kept.refl w

lemma kept_putInflight {messageId : ℤ} {message : MqttMessage}
    (hid : message.messageId = messageId) : Kept w (w.putInflight messageId message) :=
  ⟨rfl, rfl, rfl, id, fun h => ⟨h, rfl⟩, fun hk => hk.put hid⟩

lemma kept_removeInflight (messageId : ℤ) : Kept w (w.removeInflight messageId) :=
  ⟨rfl, rfl, rfl, id, fun h => ⟨h, rfl⟩, fun hk => hk.remove messageId⟩

lemma kept_saveInflightTimeout (messageId : ℤ) : Kept w (w.saveInflightTimeout messageId) :=
  ⟨rfl, rfl, rfl, id, fun h => ⟨h, rfl⟩, id⟩

/-- A message that is stored under its packet id, with a timer. -/
lemma kept_store {messageId : ℤ} {message : MqttMessage} (hid : message.messageId = messageId) :
    Kept w ((w.putInflight messageId message).saveInflightTimeout messageId) :=
  (kept_putInflight w hid).trans (kept_saveInflightTimeout _ _)

lemma kept_setQueue {items : List MqttMessage} (h : items.length ≤ w.queue.items.length) :
    Kept w (w.setQueue items) := by
  refine ⟨rfl, rfl, rfl, id, fun hb => ⟨fun hpos => ?_, rfl⟩, id⟩
  have hle := hb hpos
  show (items.length : ℤ) ≤ w.queue.capacity
  omega

lemma kept_enqueue (message : MqttMessage) : Kept w (w.enqueue message).2 := by
  have hadd : w.queue.Bounded → (w.addExt message).2 = w.queue.append message := by
    intro hb
    cases kind with
    | transient => exact congrArg Prod.snd (BoundedQueue.addExt_concurrent hb message)
    | persistent => exact congrArg Prod.snd (BoundedQueue.addExt_ignite hb message)
  simp only [enqueue]
  by_cases hadded : (w.addExt message).1 ≥ 0
  · rw [if_pos hadded]
    refine ⟨rfl, rfl, rfl, id, fun hb => ?_, id⟩
    show (w.addExt message).2.Bounded ∧ (w.addExt message).2.capacity = w.queue.capacity
    rw [hadd hb]
    exact ⟨hb.append message, rfl⟩
  · rw [if_neg hadded]
    exact Kept.refl w

lemma kept_sendPolled (message : MqttMessage) : Kept w (w.sendPolled message).2 := by
  obtain ⟨w₀, hw₀, hcases⟩ := sendPolled_cases w message
  have hkept : Kept w w₀ := by
    rcases hw₀ with rfl | ⟨-, rfl⟩
    · exact Kept.refl _
    · exact kept_publish w message false
  rcases hcases with h | ⟨messageId, h | h⟩
  · rw [h]
    exact hkept
  · rw [h]
    exact hkept.trans (kept_putInflight w₀ rfl)
  · rw [h]
    refine Kept.trans ?_ (kept_publish _ _ _)
    exact hkept.trans (kept_store w₀ rfl)

/-! ### The methods -/

/-- The loop of `dequeue`, by induction on what is left of the queue. -/
lemma kept_dequeueFrom {items : List MqttMessage} (h : items.length ≤ w.queue.items.length) :
    Kept w (w.dequeueFrom items) := by
  induction items generalizing w with
  | nil => exact kept_setQueue w h
  | cons message rest ih =>
      simp only [dequeueFrom]
      split_ifs
      · exact kept_setQueue w h
      · have hpoll : Kept w ((w.setQueue rest).sendPolled message).2 :=
          (kept_setQueue w ((Nat.le_succ _).trans h)).trans (kept_sendPolled _ message)
        have hqueue : ((w.setQueue rest).sendPolled message).2.queue = (w.setQueue rest).queue :=
          sendPolled_queue _ _
        cases hsend : (w.setQueue rest).sendPolled message with
        | mk goesOn w' =>
            rw [hsend] at hpoll hqueue
            cases goesOn with
            | true =>
                refine hpoll.trans (ih w' ?_)
                rw [show w'.queue = (w.setQueue rest).queue from hqueue]
                exact le_rfl
            | false => exact hpoll

lemma kept_publishCachedMessage : Kept w w.publishCachedMessage := kept_dequeueFrom w le_rfl

lemma kept_inflight (message : MqttMessage) : Kept w (w.inflight message).2 := by
  rw [inflight]
  dsimp only
  split_ifs
  · exact kept_enqueue w message
  · refine Kept.trans ?_ (kept_publish _ _ _)
    exact kept_store w rfl
  · exact kept_enqueue w message

lemma kept_handleMessage (message : MqttMessage) : Kept w (w.handleMessage message).2 := by
  simp only [handleMessage]
  split_ifs
  · exact kept_enqueue w message
  · exact kept_publish w message false
  · exact kept_inflight w message

lemma kept_publishMessage (message : MqttMessage) (qos : MqttQoS) :
    Kept w (w.publishMessage message qos) := by
  have hledger : Kept w { w with ledger := w.ledger.accept qos } :=
    ⟨rfl, rfl, rfl, id, fun h => ⟨h, rfl⟩, id⟩
  have hhandle := hledger.trans (kept_handleMessage _ (w.copyMqttMessage message qos))
  unfold publishMessage
  dsimp only
  split_ifs
  · exact hhandle.trans (kept_publishCachedMessage _)
  · exact hhandle

lemma kept_retryInflight (message : MqttMessage) : Kept w (w.retryInflight message).2 := by
  rw [retryInflight]
  dsimp only
  split_ifs
  · refine Kept.trans ?_ (kept_publishRelease _ _)
    exact kept_store w rfl
  · refine Kept.trans ?_ (kept_publish _ _ _)
    exact (kept_removeInflight w _).trans (kept_store _ rfl)
  · exact kept_store w rfl
  · exact Kept.refl w

lemma kept_receiveFinal (messageId : ℤ) : Kept w (w.receiveFinal messageId) := by
  have hledger : Kept w { w with ledger := w.ledger.acknowledge (w.inflights.get messageId) } :=
    ⟨rfl, rfl, rfl, id, fun h => ⟨h, rfl⟩, id⟩
  have htimer : Kept { w with ledger := w.ledger.acknowledge (w.inflights.get messageId) }
      (({ w with ledger := w.ledger.acknowledge (w.inflights.get messageId) }.removeInflight
        messageId).deleteInflightTimeout messageId) :=
    ⟨rfl, rfl, rfl, id, fun h => ⟨h, rfl⟩, fun hk => hk.remove messageId⟩
  exact (hledger.trans htimer).trans (kept_publishCachedMessage _)

lemma kept_receivePubrec (messageId : ℤ) : Kept w (w.receivePubrec messageId) := by
  simp only [receivePubrec]
  cases hget : w.inflights.get messageId with
  | none => exact Kept.refl w
  | some message =>
      exact ⟨rfl, rfl, rfl, id, fun h => ⟨h, rfl⟩, fun hk => hk.put (hk messageId message hget)⟩

lemma kept_retry (messageId : ℤ) : Kept w (w.retry messageId) := by
  simp only [retry]
  cases hget : w.inflights.get messageId with
  | none => exact Kept.refl w
  | some message =>
      dsimp only
      split_ifs
      · have hgiven : Kept w ({ w with ledger := w.ledger.discard [message] 1 }.removeInflight
            messageId) :=
          ⟨rfl, rfl, rfl, id, fun h => ⟨h, rfl⟩, fun hk => hk.remove messageId⟩
        exact hgiven.trans (kept_publishCachedMessage _)
      · exact kept_retryInflight w message

/-! ### dequeue -/

/-- One round of the loop of `dequeue`.  The flag tells whether the loop goes on. -/
def dequeueRound (w : SessionWrapper kind) : Bool × SessionWrapper kind :=
  match w.queue.items with
  | [] => (false, w)
  | message :: rest =>
      if !w.endpoint.isConnected || w.isInflightFull then (false, w)
      else (w.setQueue rest).sendPolled message

/-- `dequeue` is the loop over these rounds. -/
lemma dequeue_eq : w.dequeue =
    match w.dequeueRound with
    | (true, w') => w'.dequeue
    | (false, w') => w' := by
  simp only [dequeueRound]
  show w.dequeueFrom w.queue.items = _
  cases hitems : w.queue.items with
  | nil =>
      show w.setQueue [] = w
      rw [← hitems]
      rfl
  | cons message rest =>
      rw [dequeueFrom]
      dsimp only
      by_cases hstop : (!w.endpoint.isConnected || w.isInflightFull) = true
      · rw [if_pos hstop, if_pos hstop]
        show w.setQueue (message :: rest) = w
        rw [← hitems]
        rfl
      · rw [if_neg hstop, if_neg hstop]
        have hqueue : ((w.setQueue rest).sendPolled message).2.queue.items = rest := by
          rw [sendPolled_queue]
          rfl
        cases hsend : (w.setQueue rest).sendPolled message with
        | mk goesOn w' =>
            rw [hsend] at hqueue
            cases goesOn with
            | true => exact congrArg w'.dequeueFrom hqueue.symm
            | false => rfl

lemma kept_dequeueRound : Kept w w.dequeueRound.2 := by
  simp only [dequeueRound]
  cases hitems : w.queue.items with
  | nil => exact Kept.refl w
  | cons message rest =>
      dsimp only
      split_ifs
      · exact Kept.refl w
      · exact (kept_setQueue w (by rw [hitems]; exact Nat.le_succ _)).trans (kept_sendPolled _ _)

/-- On a connected endpoint a polled message is sent, one of QoS 0 a second time, and stored. -/
lemma sendPolled_of_connected (hc : w.endpoint.isConnected = true) (hr : w.endpoint.InRange)
    (message : MqttMessage) : w.sendPolled message = (true,
      (if message.qos = .atMostOnce then (w.publish message false).2 else w).sent message) := by
  by_cases hq : message.qos = .atMostOnce
  · have hzero : (w.publish message false).1 = 0 := by
      rw [publish_of_connected w message false hc, hq]
      rfl
    have hkept := kept_publish w message false
    obtain ⟨hid, hpos⟩ := nextMessageId_of_connected (hkept.isConnected.trans hc) (hkept.inRange hr)
    rw [hid] at hpos
    simp only [sendPolled, sent]
    simp only [hq, hzero, ne_eq, not_true_eq_false, and_false, if_false, if_true, hid]
    rw [if_pos hpos]
  · rw [if_neg hq]
    exact sendPolled_eq hc hr hq

/-- The loop goes on after a message that is sent. -/
lemma sendPolled_fst (hc : w.endpoint.isConnected = true) (hr : w.endpoint.InRange)
    (message : MqttMessage) : (w.sendPolled message).1 = true := by
  rw [sendPolled_of_connected w hc hr]

/-- On a connected endpoint the loop ends only when the queue is empty or the window full. -/
lemma dequeueRound_stops (hc : w.endpoint.isConnected = true) (hr : w.endpoint.InRange)
    (h : w.dequeueRound.1 = false) :
    w.dequeueRound.2.queue.items = [] ∨ w.dequeueRound.2.isInflightFull = true := by
  simp only [dequeueRound] at h ⊢
  cases hitems : w.queue.items with
  | nil => exact Or.inl hitems
  | cons message rest =>
      rw [hitems] at h
      dsimp only at h ⊢
      by_cases hfull : w.isInflightFull = true
      · rw [if_pos (by simp [hfull])]
        exact Or.inr hfull
      · rw [if_neg (by simp [hc, hfull])] at h
        have hsend := sendPolled_fst (w.setQueue rest) hc hr message
        rw [hsend] at h
        contradiction

/-- Nothing is polled while the endpoint is not connected. -/
lemma dequeue_of_not_connected (hc : w.endpoint.isConnected = false) : w.dequeue = w := by
  simp only [dequeue]
  cases hitems : w.queue.items with
  | nil =>
      show w.setQueue [] = w
      rw [← hitems]
      rfl
  | cons message rest =>
      simp only [dequeueFrom]
      rw [if_pos (by simp [hc]), ← hitems]
      rfl

end SessionWrapper

namespace PersistentSessionWrapper

open SessionWrapper

lemma kept_retryInflights (w : SessionWrapper .persistent) : Kept w (retryInflights w) :=
  retryInflights_induction (fun w' _ message h _ => h.trans (kept_retryInflight w' message))
    (Kept.refl w)

lemma kept_openWrapper (w : SessionWrapper .persistent) :
    Kept w (PersistentSessionWrapper.openWrapper w) :=
  (kept_retryInflights w).trans (kept_publishCachedMessage _)

/-- An inflight message after one more retry. -/
def retried (message : MqttMessage) : MqttMessage := { message with retry := message.retry + 1 }

/-- One retry while the endpoint is not connected: only the retry is counted. -/
lemma retryInflight_get {w : SessionWrapper .persistent} (hc : w.endpoint.isConnected = false)
    {message : MqttMessage} (hget : w.inflights.get message.messageId = some message) (key : ℤ) :
    (w.retryInflight message).2.inflights.get key =
      if key = message.messageId then some (retried message) else w.inflights.get key := by
  have hput := @Inflights.get_put_of_get .persistent w.inflights message.messageId (by simp [hget])
    (retried message) key
  rw [SessionWrapper.retryInflight]
  dsimp only
  rw [nextMessageId_of_not_connected hc]
  by_cases hstay : message.qos = .exactlyOnce ∧ message.status = MsgConst.PUBREC_STATUS
  · rw [if_pos hstay, publishRelease_inflights]
    exact hput
  · rw [if_neg hstay, if_neg (by decide), if_pos rfl]
    exact hput

/-- The loop of `retryInflights` over some keys: a round leaves a session without a message under
its key as it is, and retries a message. -/
lemma foldl_retry_of_not_connected
    {f : SessionWrapper .persistent → ℤ → SessionWrapper .persistent}
    (hnone : ∀ w key, w.inflights.get key = none → f w key = w)
    (hsome : ∀ w key message, w.inflights.get key = some message →
      f w key = (w.retryInflight message).2)
    (keys : List ℤ) {w : SessionWrapper .persistent} (hnodup : keys.Nodup)
    (hc : w.endpoint.isConnected = false) (hk : w.inflights.Keyed) :
    (keys.foldl f w).queue = w.queue ∧ (keys.foldl f w).endpoint = w.endpoint ∧
      ∀ key, (keys.foldl f w).inflights.get key =
        if key ∈ keys then (w.inflights.get key).map retried else w.inflights.get key := by
  induction keys generalizing w with
  | nil => exact ⟨rfl, rfl, fun key => by simp⟩
  | cons id keys ih =>
      obtain ⟨hid, hrest⟩ := nodup_cons.1 hnodup
      simp only [foldl_cons]
      cases hget : w.inflights.get id with
      | none =>
          rw [hnone w id hget]
          -- the round changes nothing, also not under its own key
          obtain ⟨hq, he, hkeys⟩ := ih hrest hc hk
          refine ⟨hq, he, fun key => ?_⟩
          rw [hkeys key]
          by_cases heq : key = id
          · subst heq
            simp [hid, hget]
          · simp [heq]
      | some message =>
          rw [hsome w id message hget]
          -- the message is stored under its own id, so the retry puts it back in its place
          obtain rfl := hk id message hget
          have he' := SessionWrapper.retryInflight_endpoint w hc message
          have hk' := (SessionWrapper.kept_retryInflight w message).keyed hk
          obtain ⟨hq, he, hkeys⟩ := ih hrest (by rw [he', hc]) hk'
          refine ⟨hq.trans (SessionWrapper.retryInflight_queue w message), he.trans he',
            fun key => ?_⟩
          rw [hkeys key, retryInflight_get hc hget]
          by_cases heq : key = message.messageId
          · subst heq
            simp [hid, hget]
          · simp [heq]

/-- `open()` before the CONNACK sends nothing: it only counts a retry of every stored message. -/
lemma openWrapper_of_not_connected {w : SessionWrapper .persistent}
    (hc : w.endpoint.isConnected = false) (hk : w.inflights.Keyed) :
    (PersistentSessionWrapper.openWrapper w).queue = w.queue ∧
      (PersistentSessionWrapper.openWrapper w).endpoint = w.endpoint ∧
      ∀ key, (PersistentSessionWrapper.openWrapper w).inflights.get key =
        (w.inflights.get key).map retried := by
  obtain ⟨f, hf, hnone, hsome⟩ : ∃ f : SessionWrapper .persistent → ℤ → SessionWrapper .persistent,
      retryInflights w = (BoundedIgniteMapUnsafe.set w.inflights).foldl f w ∧
      (∀ w key, w.inflights.get key = none → f w key = w) ∧
      (∀ w key message, w.inflights.get key = some message →
        f w key = (w.retryInflight message).2) :=
    ⟨_, rfl, fun w key h => by rw [h], fun w key message h => by rw [h]⟩
  obtain ⟨hq, he, hkeys⟩ := foldl_retry_of_not_connected hnone hsome
    (BoundedIgniteMapUnsafe.set w.inflights) (BoundedIgniteMapUnsafe.nodup w.inflights) hc hk
  have hopen : PersistentSessionWrapper.openWrapper w = retryInflights w :=
    SessionWrapper.dequeue_of_not_connected _ (by
      rw [(kept_retryInflights w).isConnected, hc])
  rw [hopen, hf]
  refine ⟨hq, he, fun key => (hkeys key).trans ?_⟩
  by_cases hmem : key ∈ BoundedIgniteMapUnsafe.set w.inflights
  · rw [if_pos hmem]
  · have hnone : w.inflights.get key = none :=
      not_not.1 fun hne => hmem ((BoundedIgniteMapUnsafe.mem_set w.inflights key).2 hne)
    rw [if_neg hmem, hnone]
    rfl

end PersistentSessionWrapper

end Stuart
