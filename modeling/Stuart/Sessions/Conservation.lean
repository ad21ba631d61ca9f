/-
Conservation of the messages of a persistent session.

Every accepted message should be in one place: the queue, the inflight map, or the ledger as
acknowledged or discarded.  What breaks this is `inflights.put`, whose result nobody looks at.
It replaces the message that is stored under the same packet id, and the ids start again with
every endpoint while the stored messages stay; and it stores nothing at all when the capacity is
not positive or the stored set is above it.  `StepOk` is what a step needs for neither to happen,
a condition on the state before the step; in a run of such steps nothing is lost
(`conserved_run`).
-/
import Stuart.Lib.Runs
import Stuart.Sessions.SessionWrapper

namespace Stuart

open List Lib

namespace PersistentSessionWrapper

open SessionWrapper

/-- The stored inflight messages. -/
def stored (w : SessionWrapper .persistent) : BoundedIgniteMapUnsafe ℤ MqttMessage := w.inflights

/-- How often a message occurs outside the queue. -/
def elsewhere (w : SessionWrapper .persistent) (uid : ℕ) : ℕ :=
  PlainMap.count (fun _ message => message.uid = uid) (stored w).cache +
    w.ledger.acknowledged.count uid + w.ledger.discarded.count uid

/-- In how many of the four places a message is, counted with multiplicity. -/
def places (w : SessionWrapper .persistent) (uid : ℕ) : ℕ :=
  w.queue.items.countP (fun message => message.uid = uid) + elsewhere w uid

/-- Every accepted message is in exactly one place, and the metric counts the discarded ones. -/
def Conserved (w : SessionWrapper .persistent) : Prop :=
  (∀ uid, places w uid = if uid < w.ledger.accepted.length then 1 else 0) ∧
    w.ledger.discarded.length = w.ledger.droppedCount

/-! ### Runs -/

/-- An operation on the wrapper of one client, or an event of its connection. -/
inductive Op where
  | publishMessage (message : MqttMessage) (qos : MqttQoS)
  | receivePuback (messageId : ℤ)
  | receivePubrec (messageId : ℤ)
  | receivePubcomp (messageId : ℤ)
  | retry (messageId : ℤ)
  | publishCachedMessage
  /-- the connection is lost -/
  | disconnect
  /-- the endpoint sends its CONNACK -/
  | accept
  /-- the client connects again and the wrapper is reused -/
  | reuse
  /-- the client connects again and a new wrapper is built over the stored state -/
  | rebuild (config : Config)

/-- The endpoint of the next connection of the client. -/
def nextEndpoint (w : SessionWrapper .persistent) : MqttEndpoint :=
  .create (w.endpoint.id + 1) w.thisClientId false

def step (w : SessionWrapper .persistent) : Op → Option (SessionWrapper .persistent)
  | .publishMessage message qos => some (w.publishMessage message qos)
  | .receivePuback messageId => some (w.receivePuback messageId)
  | .receivePubrec messageId => some (w.receivePubrec messageId)
  | .receivePubcomp messageId => some (w.receivePubcomp messageId)
  | .retry messageId => some (w.retry messageId)
  | .publishCachedMessage => some w.publishCachedMessage
  | .disconnect => some { w with endpoint := w.endpoint.close }
  | .accept => w.endpoint.accept.map fun endpoint => { w with endpoint := endpoint }
  | .reuse => some (openWrapper (refreshEndpoint w (nextEndpoint w)))
  | .rebuild config =>
      some (openWrapper (new config (nextEndpoint w) w.queue.items (stored w) w.ledger))

/-- The wrapper of the first connection, over stores that are still empty. -/
def init (config : Config) (clientId : Str) : SessionWrapper .persistent :=
  openWrapper (new config (.create 0 clientId false) [] (.create config.sessionInflightMaxCapacity)
    .empty)

/-- A message that is published has QoS 1 or 2. -/
def Op.Acknowledged : Op → Prop
  | .publishMessage _ qos => qos ≠ .atMostOnce
  | _ => True

instance : DecidablePred Op.Acknowledged
  | .publishMessage _ qos => inferInstanceAs (Decidable (qos ≠ .atMostOnce))
  | .receivePuback _ | .receivePubrec _ | .receivePubcomp _ | .retry _ | .publishCachedMessage
  | .disconnect | .accept | .reuse | .rebuild _ => inferInstanceAs (Decidable True)

/-! ### What a step needs -/

/-- The next packet ids of an endpoint. -/
def idsFrom (lastMessageId : ℤ) : ℕ → List ℤ
  | 0 => []
  | n + 1 => nextId lastMessageId :: idsFrom (nextId lastMessageId) n

/-- How many messages `dequeue` takes from a queue of this length. -/
def sendable (w : SessionWrapper .persistent) (length : ℕ) : ℕ :=
  if !w.endpoint.isConnected then 0
  else if (stored w).capacity > 0 then min length ((stored w).capacity - (stored w).size).toNat
  else length

/-- The packet ids that `dequeue` gives to the messages it takes from a queue of this length. -/
def dequeueIds (w : SessionWrapper .persistent) (length : ℕ) : List ℤ :=
  idsFrom w.endpoint.lastMessageId (sendable w length)

/-- The ids are new ones, each used once, and the inflight map has a positive capacity. -/
def DequeueOk (w : SessionWrapper .persistent) (length : ℕ) : Prop :=
  (dequeueIds w length ≠ [] → (stored w).capacity > 0) ∧ (dequeueIds w length).Nodup ∧
    ∀ id ∈ dequeueIds w length, (stored w).get id = none

instance (w : SessionWrapper .persistent) (length : ℕ) : Decidable (DequeueOk w length) :=
  inferInstanceAs (Decidable (_ ∧ _ ∧ _))

/-- A message is sent again under an id that no other message has, and there is room to store it
under the new id. -/
def RepublishOk (w : SessionWrapper .persistent) (messageId : ℤ) : Prop :=
  w.endpoint.isConnected = true →
    (stored w).capacity > 0 ∧ ((stored w).size : ℤ) ≤ (stored w).capacity ∧
      (nextId w.endpoint.lastMessageId = messageId ∨
        (stored w).get (nextId w.endpoint.lastMessageId) = none)

instance (w : SessionWrapper .persistent) (messageId : ℤ) : Decidable (RepublishOk w messageId) :=
  inferInstanceAs (Decidable (_ → _))

/-- What `retry` needs, by its three cases. -/
def RetryOk (w : SessionWrapper .persistent) (messageId : ℤ) (message : MqttMessage) : Prop :=
  if message.retry ≥ w.config.sessionInflightMaxRetries then
    DequeueOk (w.removeInflight messageId) w.queue.items.length
  else
    message.qos = .exactlyOnce ∧ message.status = MsgConst.PUBREC_STATUS ∨ RepublishOk w messageId

instance (w : SessionWrapper .persistent) (messageId : ℤ) (message : MqttMessage) :
    Decidable (RetryOk w messageId message) := by
  simp only [RetryOk]
  infer_instance

/-- The condition on a step. -/
def StepOk (w : SessionWrapper .persistent) : Op → Prop
  -- the length of the queue with the new message at its end
  | .publishMessage _ _ =>
      DequeueOk w (if w.queue.isFull then w.queue.items.length else w.queue.items.length + 1)
  | .receivePuback messageId | .receivePubcomp messageId =>
      DequeueOk (w.removeInflight messageId) w.queue.items.length
  | .retry messageId => ∀ message ∈ (stored w).get messageId, RetryOk w messageId message
  | .publishCachedMessage => DequeueOk w w.queue.items.length
  | .rebuild config => config.sessionQueueMaxCapacity > 0 →
      (w.queue.items.length : ℤ) ≤ config.sessionQueueMaxCapacity
  | .receivePubrec _ | .disconnect | .accept | .reuse => True

instance decidableStepOk (w : SessionWrapper .persistent) : ∀ op : Op, Decidable (StepOk w op)
  | .publishMessage _ _ | .receivePuback _ | .receivePubcomp _ | .publishCachedMessage =>
      inferInstanceAs (Decidable (DequeueOk _ _))
  | .retry messageId =>
      inferInstanceAs (Decidable (∀ message ∈ (stored w).get messageId,
        RetryOk w messageId message))
  | .rebuild _ => inferInstanceAs (Decidable (_ → _))
  | .receivePubrec _ | .disconnect | .accept | .reuse => inferInstanceAs (Decidable True)

/-! ### The inflight map -/

section Stored

variable (w : SessionWrapper .persistent)

lemma stored_putInflight (messageId : ℤ) (message : MqttMessage) :
    stored (w.putInflight messageId message) = ((stored w).put messageId message).2 := rfl

lemma stored_removeInflight (messageId : ℤ) :
    stored (w.removeInflight messageId) = (stored w).remove messageId := rfl

/-- A message that is stored under a new key is in one place more. -/
lemma elsewhere_put_new {messageId : ℤ} (hnone : (stored w).get messageId = none)
    (hacc : (stored w).accepts messageId) (message : MqttMessage) (uid : ℕ) :
    elsewhere (w.putInflight messageId message) uid =
      elsewhere w uid + if message.uid = uid then 1 else 0 := by
  have hrem : (stored w).cache.remove messageId = (stored w).cache :=
    PlainMap.remove_of_get_none hnone
  simp only [elsewhere]
  rw [stored_putInflight, BoundedIgniteMapUnsafe.put_of_accepts _ hacc]
  have hcount := PlainMap.count_put (fun (_ : ℤ) (m : MqttMessage) => decide (m.uid = uid))
    (stored w).cache messageId message
  rw [hrem] at hcount
  simp only [BoundedIgniteMapUnsafe.insert, putInflight, hcount, decide_eq_true_eq]
  omega

/-- A message that replaces itself stays where it is. -/
lemma elsewhere_put_same {messageId : ℤ} {old message : MqttMessage}
    (hget : (stored w).get messageId = some old) (huid : old.uid = message.uid) (uid : ℕ) :
    elsewhere (w.putInflight messageId message) uid = elsewhere w uid := by
  have hacc : (stored w).accepts messageId := Or.inl (by simp [hget])
  simp only [elsewhere]
  rw [stored_putInflight, BoundedIgniteMapUnsafe.put_of_accepts _ hacc]
  have hput := PlainMap.count_put (fun (_ : ℤ) (m : MqttMessage) => decide (m.uid = uid))
    (stored w).cache messageId message
  have hold := PlainMap.count_of_get (fun (_ : ℤ) (m : MqttMessage) => decide (m.uid = uid)) hget
  simp only [BoundedIgniteMapUnsafe.insert, putInflight, hput, hold, huid]

/-- A message that is removed is in one place less. -/
lemma elsewhere_remove {messageId : ℤ} {message : MqttMessage}
    (hget : (stored w).get messageId = some message) (uid : ℕ) :
    elsewhere (w.removeInflight messageId) uid + (if message.uid = uid then 1 else 0) =
      elsewhere w uid := by
  have hold := PlainMap.count_of_get (fun (_ : ℤ) (m : MqttMessage) => decide (m.uid = uid)) hget
  simp only [elsewhere]
  rw [stored_removeInflight, hold]
  simp only [BoundedIgniteMapUnsafe.remove, removeInflight, decide_eq_true_eq]
  omega

lemma removeInflight_none {messageId : ℤ} (hnone : (stored w).get messageId = none) (uid : ℕ) :
    elsewhere (w.removeInflight messageId) uid = elsewhere w uid := by
  have hrem : (stored w).cache.remove messageId = (stored w).cache :=
    PlainMap.remove_of_get_none hnone
  simp only [elsewhere]
  rw [stored_removeInflight]
  simp only [BoundedIgniteMapUnsafe.remove, removeInflight, hrem]

end Stored

/-! ### The invariant -/

/-- The invariant of a wrapper whose queue holds `items`: besides the conservation, what an
operation needs of the state it starts in.  The items are named because `dequeue` works on what
is left of the queue, and because an accepted message is not in the queue yet. -/
structure Sound (w : SessionWrapper .persistent) (items : List MqttMessage) : Prop where
  once : ∀ uid, items.countP (fun message => message.uid = uid) + elsewhere w uid =
    if uid < w.ledger.accepted.length then 1 else 0
  dropped : w.ledger.discarded.length = w.ledger.droppedCount
  keyed : ∀ messageId message, (stored w).get messageId = some message →
    message.messageId = messageId
  inRange : w.endpoint.InRange
  acknowledged : ∀ message ∈ items, message.qos ≠ .atMostOnce

variable {w : SessionWrapper .persistent} {items : List MqttMessage}

lemma Sound.conserved (h : Sound w w.queue.items) : Conserved w := ⟨h.once, h.dropped⟩

/-- Only the queue, the stored messages, the ledger and the counter of the endpoint matter. -/
lemma Sound.congr {w' : SessionWrapper .persistent} {items' : List MqttMessage}
    (h : Sound w items) (hitems : items' = items) (hcache : (stored w').cache = (stored w).cache)
    (hledger : w'.ledger = w.ledger) (hrange : w'.endpoint.InRange) : Sound w' items' where
  once := by
    intro uid
    rw [hitems, elsewhere, hcache, hledger]
    exact h.once uid
  dropped := by
    rw [hledger]
    exact h.dropped
  keyed := by
    intro messageId message hget
    refine h.keyed messageId message ?_
    rw [BoundedIgniteMapUnsafe.get, ← hcache]
    exact hget
  inRange := hrange
  acknowledged := by
    rw [hitems]
    exact h.acknowledged

lemma Sound.removeInflight (h : Sound w items) {messageId : ℤ} {message : MqttMessage}
    (hget : (stored w).get messageId = some message) {w' : SessionWrapper .persistent}
    (hstored : stored w' = stored (w.removeInflight messageId))
    (haccepted : w'.ledger.accepted = w.ledger.accepted)
    (hdropped : w'.ledger.discarded.length = w'.ledger.droppedCount)
    (hledger : ∀ uid, w'.ledger.acknowledged.count uid + w'.ledger.discarded.count uid =
      w.ledger.acknowledged.count uid + w.ledger.discarded.count uid +
        if message.uid = uid then 1 else 0)
    (hrange : w'.endpoint.InRange) : Sound w' items where
  once := by
    intro uid
    have honce := h.once uid
    have hrem := elsewhere_remove w hget uid
    have hled := hledger uid
    have hw' : elsewhere w' uid = elsewhere (w.removeInflight messageId) uid +
        if message.uid = uid then 1 else 0 := by
      simp only [elsewhere]
      rw [hstored]
      simp only [SessionWrapper.removeInflight]
      omega
    rw [haccepted]
    omega
  dropped := hdropped
  keyed := by
    intro key m hkey
    rw [hstored, stored_removeInflight, BoundedIgniteMapUnsafe.get_remove] at hkey
    split_ifs at hkey
    exact h.keyed key m hkey
  inRange := hrange
  acknowledged := h.acknowledged

/-! ### dequeue -/

lemma stored_sent (message : MqttMessage) :
    stored (w.sent message) = ((stored w).put (nextId w.endpoint.lastMessageId)
      { message with messageId := nextId w.endpoint.lastMessageId }).2 :=
  sent_inflights message

/-- The first message of the queue goes out under a new packet id. -/
lemma Sound.sent {message : MqttMessage} (h : Sound w (message :: items))
    (hc : w.endpoint.isConnected = true)
    (hnone : (stored w).get (nextId w.endpoint.lastMessageId) = none)
    (hacc : (stored w).accepts (nextId w.endpoint.lastMessageId)) :
    Sound (w.sent message) items where
  once := by
    intro uid
    have honce := h.once uid
    have hput : _ = elsewhere w uid + if message.uid = uid then 1 else 0 :=
      elsewhere_put_new w hnone hacc
        { message with messageId := nextId w.endpoint.lastMessageId } uid
    have helse : elsewhere (w.sent message) uid =
        elsewhere (w.putInflight (nextId w.endpoint.lastMessageId)
          { message with messageId := nextId w.endpoint.lastMessageId }) uid := by
      simp only [elsewhere]
      rw [stored_sent, stored_putInflight]
      rw [sent_ledger]
      rfl
    rw [helse, hput, sent_ledger]
    rw [countP_cons] at honce
    simp only [decide_eq_true_eq] at honce
    omega
  dropped := by
    rw [sent_ledger]
    exact h.dropped
  keyed := by
    intro key m hkey
    rw [stored_sent, BoundedIgniteMapUnsafe.put_of_accepts _ hacc,
      BoundedIgniteMapUnsafe.get_insert] at hkey
    split_ifs at hkey with heq
    · cases hkey
      exact heq.symm
    · exact h.keyed key m hkey
  inRange := by
    have hrange := nextId_range h.inRange
    simp only [MqttEndpoint.InRange]
    rw [(sent_endpoint hc message).2]
    omega
  acknowledged := fun m hm => h.acknowledged m (mem_cons_of_mem _ hm)

/-- A message that is sent leaves the rest of what `dequeue` needs. -/
lemma DequeueOk.sent {n : ℕ} (h : DequeueOk w (n + 1)) (hc : w.endpoint.isConnected = true)
    (hfull : w.isInflightFull = false) (message : MqttMessage) :
    (stored w).get (nextId w.endpoint.lastMessageId) = none ∧
      (stored w).accepts (nextId w.endpoint.lastMessageId) ∧
      DequeueOk (w.sent message) n := by
  have hfull' : ¬((stored w).capacity > 0 ∧ ((stored w).set.length : ℤ) ≥ (stored w).capacity) := by
    have hdec : (stored w).isFull = false := hfull
    simpa [BoundedIgniteMapUnsafe.isFull] using hdec
  -- at least one message is taken, so the capacity is positive
  have hcap : (stored w).capacity > 0 := by
    by_contra hcap
    have hn : sendable w (n + 1) = n + 1 := by
      simp only [sendable]
      rw [if_neg (by simp [hc]), if_neg hcap]
    refine hcap (h.1 ?_)
    simp only [dequeueIds]
    rw [hn, idsFrom]
    exact cons_ne_nil _ _
  have hsize : ((stored w).set.length : ℤ) < (stored w).capacity := by omega
  have hsend : sendable w (n + 1) =
      min n ((stored w).capacity - ((stored w).set.length + 1)).toNat + 1 := by
    simp only [sendable, BoundedIgniteMapUnsafe.size]
    rw [if_neg (by simp [hc]), if_pos hcap]
    omega
  obtain ⟨-, hnodup, hnone⟩ := h
  simp only [dequeueIds] at hnodup hnone
  rw [hsend, idsFrom] at hnodup hnone
  have hnone1 := hnone _ mem_cons_self
  have hacc : (stored w).accepts (nextId w.endpoint.lastMessageId) := Or.inr ⟨hcap, hsize⟩
  refine ⟨hnone1, hacc, ?_⟩
  -- the set has grown by the new key
  have hkey : nextId w.endpoint.lastMessageId ∉ (stored w).set := by
    rw [(stored w).mem_set]
    exact fun hne => hne hnone1
  have hst : stored (w.sent message) =
      (stored w).insert (nextId w.endpoint.lastMessageId)
        { message with messageId := nextId w.endpoint.lastMessageId } := by
    rw [stored_sent, BoundedIgniteMapUnsafe.put_of_accepts _ hacc]
  have hset : (stored (w.sent message)).set.length =
      (stored w).set.length + 1 := by
    rw [hst]
    simp [BoundedIgniteMapUnsafe.insert, hkey]
  have hsend' : sendable (w.sent message) n =
      min n ((stored w).capacity - ((stored w).set.length + 1)).toNat := by
    simp only [sendable, BoundedIgniteMapUnsafe.size]
    rw [if_neg (by simp [(sent_endpoint hc message).1]), hset, hst]
    simp [BoundedIgniteMapUnsafe.insert, hcap]
  simp only [DequeueOk, dequeueIds]
  rw [hsend', (sent_endpoint hc message).2]
  refine ⟨fun _ => by rw [hst]; exact hcap, (nodup_cons.1 hnodup).2, fun id hid => ?_⟩
  have hne : id ≠ nextId w.endpoint.lastMessageId := by
    rintro rfl
    exact (nodup_cons.1 hnodup).1 hid
  rw [hst, BoundedIgniteMapUnsafe.get_insert, if_neg hne]
  exact hnone id (mem_cons_of_mem _ hid)

/-- `dequeue` keeps the messages, by induction on what is left of the queue. -/
theorem Sound.dequeueFrom {w : SessionWrapper .persistent} {items : List MqttMessage}
    (h : Sound w items) (hok : DequeueOk w items.length) :
    Sound (w.dequeueFrom items) (w.dequeueFrom items).queue.items ∧
      (w.dequeueFrom items).queue.capacity = w.queue.capacity ∧
      (w.dequeueFrom items).queue.items.length ≤ items.length := by
  induction items generalizing w with
  | nil => exact ⟨h.congr rfl rfl rfl h.inRange, rfl, le_rfl⟩
  | cons message rest ih =>
      simp only [SessionWrapper.dequeueFrom]
      by_cases hstop : (!w.endpoint.isConnected || w.isInflightFull) = true
      · rw [if_pos hstop]
        exact ⟨h.congr rfl rfl rfl h.inRange, rfl, le_rfl⟩
      · simp only [Bool.or_eq_true, Bool.not_eq_true', not_or, Bool.not_eq_false,
          Bool.not_eq_true] at hstop
        obtain ⟨hc, hfull⟩ := hstop
        rw [if_neg (by simp [hc, hfull])]
        -- the polled message is in the hand of `dequeue`, which the second argument counts
        have hpoll : Sound (w.setQueue rest) (message :: rest) := h.congr rfl rfl rfl h.inRange
        rw [sendPolled_eq (w := w.setQueue rest) hc hpoll.inRange
          (h.acknowledged message mem_cons_self)]
        have hok' : DequeueOk (w.setQueue rest) (rest.length + 1) := hok
        obtain ⟨hnone, hacc, hnext⟩ := hok'.sent hc hfull message
        obtain ⟨hsound, hcap, hlen⟩ := ih (hpoll.sent hc hnone hacc) hnext
        have hqueue : ((w.setQueue rest).sent message).queue =
            (w.setQueue rest).queue := publish_queue _ _ _
        refine ⟨hsound, ?_, hlen.trans (Nat.le_succ _)⟩
        rw [hcap, hqueue]
        rfl

/-- Nothing is sent while the endpoint is not connected. -/
lemma dequeueOk_of_not_connected (hc : w.endpoint.isConnected = false) (n : ℕ) :
    DequeueOk w n := by
  have hids : dequeueIds w n = [] := by
    simp only [dequeueIds, sendable]
    rw [if_pos (by simp [hc])]
    rfl
  simp only [DequeueOk]
  rw [hids]
  simp

/-- The invariant between two operations. -/
def Inv (w : SessionWrapper .persistent) : Prop := Sound w w.queue.items ∧ w.queue.Bounded

lemma Sound.publishCachedMessage (h : Sound w w.queue.items) (hb : w.queue.Bounded)
    (hok : DequeueOk w w.queue.items.length) : Inv w.publishCachedMessage := by
  obtain ⟨hsound, hcap, hlen⟩ := h.dequeueFrom hok
  refine ⟨hsound, fun hpos => ?_⟩
  have hle := hb (hcap ▸ hpos)
  change ((w.dequeueFrom w.queue.items).queue.items.length : ℤ) ≤
    (w.dequeueFrom w.queue.items).queue.capacity
  rw [hcap]
  omega

/-! ### enqueue and publishMessage -/

/-- The wrapper with a message more in its queue and what this evicts in the ledger. -/
def enqueued (w : SessionWrapper .persistent) (message : MqttMessage) :
    SessionWrapper .persistent :=
  { w with
    queue := w.queue.append message
    ledger := w.ledger.discard w.queue.evicted w.queue.evicted.length }

lemma enqueue_eq (hb : w.queue.Bounded) (message : MqttMessage) :
    w.enqueue message = (MsgConst.ENQUEUE_SUCCEEDED, enqueued w message) := by
  have hadd : w.addExt message = (if w.queue.isFull then 1 else 0, w.queue.append message) :=
    BoundedQueue.addExt_ignite hb message
  have hlen := BoundedQueue.length_evicted (q := w.queue)
  simp only [enqueue, enqueued]
  rw [hadd]
  -- a full queue loses its oldest message
  by_cases hfull : w.queue.isFull = true
  · have hne : 0 < w.queue.items.length := by
      simp only [BoundedQueue.isFull, decide_eq_true_eq] at hfull
      omega
    have happ : (w.queue.append message).items.length = w.queue.items.length := by
      simp only [BoundedQueue.append, hfull, if_true, length_append, length_tail,
        length_singleton]
      omega
    simp only [hfull, if_true] at hlen ⊢
    rw [if_pos (by decide), happ, BoundedQueue.evicted, if_pos hfull, if_neg (by decide)]
    have hsub : w.queue.items.length + 1 - w.queue.items.length = 1 := by omega
    have htake : (w.queue.items.take 1).length = 1 := by
      rw [length_take]
      omega
    rw [hsub, htake]
  · have happ : (w.queue.append message).items.length = w.queue.items.length + 1 := by
      simp [BoundedQueue.append, hfull]
    simp only [hfull] at hlen ⊢
    rw [if_pos (by decide), happ, Nat.sub_self, BoundedQueue.evicted, if_neg hfull]
    rfl

/-- A message that is not anywhere yet goes to the end of the queue. -/
lemma Sound.enqueue {message : MqttMessage} (h : Sound w (w.queue.items ++ [message]))
    (hb : w.queue.Bounded) : Inv (w.enqueue message).2 := by
  rw [enqueue_eq hb]
  refine ⟨⟨fun uid => ?_, ?_, h.keyed, h.inRange, fun m hm => ?_⟩, hb.append message⟩
  · have honce := h.once uid
    have hitems := congrArg (countP fun m : MqttMessage => decide (m.uid = uid))
      (w.queue.evicted_append_items message)
    rw [countP_append] at hitems
    have hcount : (w.queue.evicted.map MqttMessage.uid).count uid =
        w.queue.evicted.countP fun m : MqttMessage => decide (m.uid = uid) := by
      rw [count, countP_map]
      congr 1
    have helse : elsewhere (enqueued w message) uid =
        elsewhere w uid + w.queue.evicted.countP fun m : MqttMessage => decide (m.uid = uid) := by
      simp only [elsewhere, enqueued, Ledger.discard]
      rw [count_append, hcount, ← Nat.add_assoc]
      rfl
    change (w.queue.append message).items.countP _ + elsewhere (enqueued w message) uid =
      if uid < w.ledger.accepted.length then 1 else 0
    rw [helse, ← honce]
    omega
  · have hdrop := h.dropped
    simp only [enqueued, Ledger.discard, length_append, length_map]
    omega
  · refine h.acknowledged m ?_
    rw [← w.queue.evicted_append_items message]
    exact mem_append_right _ hm

/-- A message that `publishMessage` accepts, with nowhere to be yet. -/
lemma Sound.accept (h : Sound w w.queue.items) (message : MqttMessage) {qos : MqttQoS}
    (hq : qos ≠ .atMostOnce) :
    Sound { w with ledger := w.ledger.accept qos }
      (w.queue.items ++ [w.copyMqttMessage message qos]) where
  once := by
    intro uid
    have honce := h.once uid
    have helse : elsewhere { w with ledger := w.ledger.accept qos } uid = elsewhere w uid := rfl
    have hlen : (w.ledger.accept qos).accepted.length = w.ledger.accepted.length + 1 := by
      simp [Ledger.accept]
    have huid : (w.copyMqttMessage message qos).uid = w.ledger.accepted.length := rfl
    rw [helse, countP_append, countP_singleton, huid, hlen]
    simp only [decide_eq_true_eq]
    -- an older message, the new one, or one that does not exist yet
    rcases lt_trichotomy uid w.ledger.accepted.length with hlt | heq | hgt
    · rw [if_pos hlt] at honce
      rw [if_neg (by omega), if_pos (by omega)]
      omega
    · rw [if_neg (by omega)] at honce
      rw [if_pos heq.symm, if_pos (by omega)]
      omega
    · rw [if_neg (by omega)] at honce
      rw [if_neg (by omega), if_neg (by omega)]
      omega
  dropped := h.dropped
  keyed := h.keyed
  inRange := h.inRange
  acknowledged := by
    intro m hm
    rcases mem_append.1 hm with hm | hm
    · exact h.acknowledged m hm
    · rw [mem_singleton.1 hm]
      exact hq

/-- The length of the queue with one more message. -/
lemma length_append_items (q : BoundedQueue MqttMessage) (message : MqttMessage) :
    (q.append message).items.length = if q.isFull then q.items.length else q.items.length + 1 := by
  by_cases hfull : q.isFull = true
  · have hpos : 0 < q.items.length := by
      simp only [BoundedQueue.isFull, decide_eq_true_eq] at hfull
      omega
    simp only [BoundedQueue.append, hfull, if_true, length_append, length_tail, length_singleton]
    omega
  · simp [BoundedQueue.append, hfull]

/-- A message that is enqueued is followed by a flush of the queue. -/
lemma Sound.enqueue_flush {message : MqttMessage} (h : Sound w (w.queue.items ++ [message]))
    (hb : w.queue.Bounded) (hok : DequeueOk w (w.queue.append message).items.length) :
    Inv (if (w.enqueue message).1 = MsgConst.ENQUEUE_SUCCEEDED then
      (w.enqueue message).2.publishCachedMessage else (w.enqueue message).2) := by
  obtain ⟨hs', hb'⟩ := h.enqueue hb
  rw [enqueue_eq hb] at hs' hb' ⊢
  rw [if_pos rfl]
  exact hs'.publishCachedMessage hb' hok

/-- What `publishMessage` does after the acceptance. -/
lemma Sound.inflight {message : MqttMessage} (h : Sound w (w.queue.items ++ [message]))
    (hb : w.queue.Bounded) (hok : DequeueOk w (w.queue.append message).items.length) :
    Inv (if (w.inflight message).1 = MsgConst.ENQUEUE_SUCCEEDED then
      (w.inflight message).2.publishCachedMessage else (w.inflight message).2) := by
  have hq : message.qos ≠ .atMostOnce := h.acknowledged message (by simp)
  by_cases hnow : w.queue.items = [] ∧ w.isInflightFull = false ∧ w.endpoint.isConnected = true
  · -- the message goes out at once
    obtain ⟨hempty, hfull, hc⟩ := hnow
    rw [inflight_of_room hempty hfull hc h.inRange hq]
    rw [length_append_items, hempty, if_neg (by simp [BoundedQueue.isFull, hempty])] at hok
    rw [hempty] at h
    have hnext := (nextId_range h.inRange).1
    obtain ⟨hnone, hacc, -⟩ := DequeueOk.sent (n := 0) hok hc hfull message
    have hsent : Sound (w.sent message) [] := Sound.sent h hc hnone hacc
    rw [if_neg (by unfold MsgConst.ENQUEUE_SUCCEEDED; omega)]
    simp only [Inv]
    rw [sent_queue, hempty]
    exact ⟨hsent, hb⟩
  · have hwait : w.queue.items ≠ [] ∨ w.isInflightFull = true ∨
        w.endpoint.isConnected = false := by
      by_contra hno
      simp only [not_or, not_not, Bool.not_eq_true, Bool.not_eq_false] at hno
      exact hnow hno
    rw [inflight_of_wait hwait]
    exact h.enqueue_flush hb hok

lemma Inv.publishMessage (h : Inv w) (message : MqttMessage) {qos : MqttQoS}
    (hq : qos ≠ .atMostOnce) (hok : StepOk w (.publishMessage message qos)) :
    Inv (w.publishMessage message qos) := by
  obtain ⟨hsound, hb⟩ := h
  have hs := hsound.accept message hq
  have hqos : (w.copyMqttMessage message qos).qos ≠ .atMostOnce := hq
  simp only [SessionWrapper.publishMessage, handleMessage]
  simp only [if_neg hqos]
  refine hs.inflight hb ?_
  rw [length_append_items]
  exact hok

/-! ### Acknowledgements -/

lemma Inv.receiveFinal (h : Inv w) {messageId : ℤ}
    (hok : DequeueOk (w.removeInflight messageId) w.queue.items.length) :
    Inv (w.receiveFinal messageId) := by
  obtain ⟨hsound, hb⟩ := h
  simp only [SessionWrapper.receiveFinal]
  refine Sound.publishCachedMessage ?_ hb hok
  cases hget : (stored w).get messageId with
  | none =>
      -- nothing is acknowledged, and removing what is not there changes nothing
      have hget' : w.inflights.get messageId = none := hget
      refine ⟨fun uid => ?_, ?_, fun key m hkey => ?_, hsound.inRange, hsound.acknowledged⟩
      · have hled : w.ledger.acknowledge none = w.ledger := by simp [Ledger.acknowledge]
        have honce := hsound.once uid
        rw [← removeInflight_none w hget uid] at honce
        rw [hget', hled]
        exact honce
      · exact hsound.dropped
      · rw [show stored _ = (stored w).remove messageId from rfl,
          BoundedIgniteMapUnsafe.get_remove] at hkey
        split_ifs at hkey
        exact hsound.keyed key m hkey
  | some message =>
      have hget' : w.inflights.get messageId = some message := hget
      refine hsound.removeInflight hget rfl rfl hsound.dropped (fun uid => ?_) hsound.inRange
      change (w.ledger.acknowledge (w.inflights.get messageId)).acknowledged.count uid +
        w.ledger.discarded.count uid = _
      rw [hget']
      simp only [Ledger.acknowledge, Option.toList_some, map_cons, map_nil, count_append,
        count_singleton, beq_iff_eq]
      omega

/-- A stored message is replaced by a newer state of itself. -/
lemma Sound.putSame (h : Sound w items) {messageId : ℤ} {old message : MqttMessage}
    (hget : (stored w).get messageId = some old) (huid : old.uid = message.uid)
    (hid : message.messageId = messageId) : Sound (w.putInflight messageId message) items where
  once := by
    intro uid
    rw [elsewhere_put_same w hget huid]
    exact h.once uid
  dropped := h.dropped
  keyed := by
    intro key m hkey
    rw [stored_putInflight, BoundedIgniteMapUnsafe.put_of_accepts _ (Or.inl (by simp [hget])),
      BoundedIgniteMapUnsafe.get_insert] at hkey
    split_ifs at hkey with heq
    · cases hkey
      rw [heq, hid]
    · exact h.keyed key m hkey
  inRange := h.inRange
  acknowledged := h.acknowledged

lemma Inv.receivePubrec (h : Inv w) (messageId : ℤ) : Inv (w.receivePubrec messageId) := by
  obtain ⟨hsound, hb⟩ := h
  simp only [SessionWrapper.receivePubrec]
  cases hget : w.inflights.get messageId with
  | none => exact ⟨hsound, hb⟩
  | some message => exact ⟨hsound.putSame hget rfl (hsound.keyed messageId message hget), hb⟩

/-! ### retry -/

/-- A message that stays where it is: it waits for its release, or the endpoint is not
connected. -/
lemma Sound.retryInflight_stays (h : Sound w items) {messageId : ℤ} {message : MqttMessage}
    (hget : (stored w).get messageId = some message)
    (hstay : message.qos = .exactlyOnce ∧ message.status = MsgConst.PUBREC_STATUS ∨
      w.endpoint.isConnected = false) : Sound (w.retryInflight message).2 items := by
  have hid := h.keyed messageId message hget
  have hput : Sound ((w.putInflight message.messageId { message with
      retry := message.retry + 1 }).saveInflightTimeout message.messageId) items := by
    have hsame : Sound (w.putInflight messageId { message with retry := message.retry + 1 })
      items := h.putSame hget rfl hid
    refine hsame.congr rfl ?_ rfl h.inRange
    rw [hid]
    rfl
  simp only [SessionWrapper.retryInflight]
  by_cases hrel : message.qos = .exactlyOnce ∧ message.status = MsgConst.PUBREC_STATUS
  · simp only [if_pos hrel]
    refine hput.congr rfl (congrArg BoundedIgniteMapUnsafe.cache (publishRelease_inflights _ _))
      (publishRelease_ledger _ _) ?_
    simp only [MqttEndpoint.InRange]
    rw [publishRelease_lastMessageId]
    exact h.inRange
  · have hc := hstay.resolve_left hrel
    simp only [if_neg hrel, nextMessageId_of_not_connected hc]
    rw [if_neg (by decide)]
    exact hput

/-- The old id makes room for the new one. -/
lemma size_removeInflight_lt {messageId : ℤ} {message : MqttMessage}
    (hget : (stored w).get messageId = some message)
    (hsize : ((stored w).size : ℤ) ≤ (stored w).capacity) :
    ((stored (w.removeInflight messageId)).size : ℤ) <
      (stored (w.removeInflight messageId)).capacity := by
  have hmem : messageId ∈ (stored w).set := by
    rw [(stored w).mem_set]
    intro hno
    rw [show (stored w).cache.get messageId = some message from hget] at hno
    cases hno
  have hlen : ((stored w).set.erase messageId).length = (stored w).set.length - 1 :=
    length_erase_of_mem hmem
  have hpos := length_pos_of_mem hmem
  change (((stored w).set.erase messageId).length : ℤ) < (stored w).capacity
  simp only [BoundedIgniteMapUnsafe.size] at hsize
  omega

/-- A message that is sent again moves to its new id. -/
lemma Sound.retryInflight_moves (h : Sound w items) {messageId : ℤ} {message : MqttMessage}
    (hget : (stored w).get messageId = some message)
    (hrel : ¬(message.qos = .exactlyOnce ∧ message.status = MsgConst.PUBREC_STATUS))
    (hc : w.endpoint.isConnected = true) (hok : RepublishOk w messageId) :
    Sound (w.retryInflight message).2 items := by
  have hid := h.keyed messageId message hget
  obtain ⟨hcap, hsize, hnew⟩ := hok hc
  obtain ⟨hnext, hpos⟩ := nextMessageId_of_connected hc h.inRange
  rw [hnext] at hpos
  set id := nextId w.endpoint.lastMessageId with hidef
  set retried : MqttMessage := { message with messageId := id, retry := message.retry + 1 }
  -- the new id is free, or it is the one that was just removed
  have hnone : (stored (w.removeInflight messageId)).get id = none := by
    rw [stored_removeInflight, BoundedIgniteMapUnsafe.get_remove]
    split_ifs with heq
    · rfl
    · exact hnew.resolve_left heq
  have hacc : (stored (w.removeInflight messageId)).accepts id :=
    Or.inr ⟨hcap, size_removeInflight_lt hget hsize⟩
  have hmoved : (w.retryInflight message).2 =
      ((((w.removeInflight messageId).putInflight id retried).saveInflightTimeout id).publish
        retried true).2 := by
    simp only [SessionWrapper.retryInflight]
    simp only [if_neg hrel, hnext]
    rw [if_pos hpos, hid]
  rw [hmoved]
  have hst : stored ((((w.removeInflight messageId).putInflight id retried).saveInflightTimeout
      id).publish retried true).2 = stored ((w.removeInflight messageId).putInflight id retried) :=
    publish_inflights _ _ _
  have hled : ((((w.removeInflight messageId).putInflight id retried).saveInflightTimeout
      id).publish retried true).2.ledger = w.ledger := publish_ledger _ _ _
  have hend := publish_endpoint (((w.removeInflight messageId).putInflight id
    retried).saveInflightTimeout id) retried true hc
  refine ⟨fun uid => ?_, ?_, fun key m hkey => ?_, ?_, h.acknowledged⟩
  · have hput : _ = elsewhere (w.removeInflight messageId) uid +
        if message.uid = uid then 1 else 0 :=
      elsewhere_put_new (w.removeInflight messageId) hnone hacc retried uid
    have hsame : elsewhere ((((w.removeInflight messageId).putInflight id
        retried).saveInflightTimeout id).publish retried true).2 uid =
        elsewhere ((w.removeInflight messageId).putInflight id retried) uid := by
      simp only [elsewhere]
      rw [hst, hled]
      rfl
    have hrem := elsewhere_remove w hget uid
    rw [hsame, hput, hrem, hled]
    exact h.once uid
  · rw [hled]
    exact h.dropped
  · rw [hst, stored_putInflight, BoundedIgniteMapUnsafe.put_of_accepts _ hacc,
      BoundedIgniteMapUnsafe.get_insert] at hkey
    split_ifs at hkey with heq
    · cases hkey
      exact heq.symm
    · rw [stored_removeInflight, BoundedIgniteMapUnsafe.get_remove] at hkey
      split_ifs at hkey
      exact h.keyed key m hkey
  · have hrange := nextId_range h.inRange
    simp only [MqttEndpoint.InRange]
    rw [hend.2]
    change 0 ≤ id ∧ id ≤ MsgConst.MAX_MESSAGE_ID
    omega

lemma Inv.retry (h : Inv w) {messageId : ℤ} (hok : StepOk w (.retry messageId)) :
    Inv (w.retry messageId) := by
  obtain ⟨hsound, hb⟩ := h
  simp only [SessionWrapper.retry]
  cases hget : w.inflights.get messageId with
  | none => exact ⟨hsound, hb⟩
  | some message =>
      have hret : RetryOk w messageId message := hok message hget
      simp only [RetryOk] at hret
      by_cases hmax : message.retry ≥ w.config.sessionInflightMaxRetries
      · -- given up, and counted
        rw [if_pos hmax] at hret
        simp only [if_pos hmax]
        refine Sound.publishCachedMessage ?_ hb hret
        refine hsound.removeInflight hget rfl rfl ?_ (fun uid => ?_) hsound.inRange
        · change (w.ledger.discarded ++ [message.uid]).length = w.ledger.droppedCount + 1
          rw [length_append, hsound.dropped, length_singleton]
        · change w.ledger.acknowledged.count uid +
            (w.ledger.discarded ++ [message.uid]).count uid = _
          rw [count_append, count_singleton]
          simp only [beq_iff_eq]
          omega
      · rw [if_neg hmax] at hret
        simp only [if_neg hmax]
        simp only [Inv]
        rw [retryInflight_queue]
        -- no new id is chosen, or the message moves to one
        by_cases hstay : message.qos = .exactlyOnce ∧ message.status = MsgConst.PUBREC_STATUS ∨
            w.endpoint.isConnected = false
        · exact ⟨hsound.retryInflight_stays hget hstay, hb⟩
        · rw [not_or, Bool.not_eq_false] at hstay
          exact ⟨hsound.retryInflight_moves hget hstay.1 hstay.2 (hret.resolve_left hstay.1), hb⟩

/-! ### open -/

/-- `retryInflight()` before the CONNACK only counts the retries. -/
lemma Sound.retryInflights (h : Sound w items) (hc : w.endpoint.isConnected = false) :
    Sound (retryInflights w) items ∧ (retryInflights w).queue = w.queue ∧
      (retryInflights w).endpoint = w.endpoint := by
  refine @retryInflights_induction (fun w' => Sound w' items ∧ w'.queue = w.queue ∧
    w'.endpoint = w.endpoint) ?_ w ⟨h, rfl, rfl⟩
  rintro w' key message ⟨hs, hq, he⟩ hget
  have hc' : w'.endpoint.isConnected = false := he ▸ hc
  exact ⟨hs.retryInflight_stays hget (Or.inr hc'), (retryInflight_queue w' message).trans hq,
    (retryInflight_endpoint w' hc' message).trans he⟩

lemma Inv.openWrapper (h : Inv w) (hc : w.endpoint.isConnected = false) : Inv (openWrapper w) := by
  obtain ⟨hs, hq, he⟩ := h.1.retryInflights hc
  simp only [PersistentSessionWrapper.openWrapper]
  rw [← hq] at hs
  refine hs.publishCachedMessage (hq ▸ h.2) (dequeueOk_of_not_connected ?_ _)
  rw [he, hc]

lemma Inv.rebuild (h : Inv w) {config : Config} (hok : StepOk w (.rebuild config)) :
    Inv (PersistentSessionWrapper.openWrapper
      (new config (nextEndpoint w) w.queue.items (stored w) w.ledger)) := by
  have hitems : (openQueue config.sessionQueueMaxCapacity w.queue.items).items =
      w.queue.items := by
    refine if_neg fun hover => ?_
    have := hok hover.1
    omega
  refine Inv.openWrapper ⟨?_, openQueue_bounded _ _⟩ rfl
  exact h.1.congr hitems rfl rfl (MqttEndpoint.inRange_create _ _ _)

/-! ### Runs -/

/-- What one step keeps, one case for each operation. -/
lemma Inv.step {w' : SessionWrapper .persistent} (h : Inv w) {op : Op} (hop : op.Acknowledged)
    (hok : StepOk w op) (hstep : step w op = some w') : Inv w' := by
  cases op with
  | accept =>
      obtain ⟨endpoint, hacc, rfl⟩ := Option.map_eq_some_iff.1 hstep
      obtain ⟨-, rfl⟩ := MqttEndpoint.eq_of_accept hacc
      exact ⟨h.1.congr rfl rfl rfl h.1.inRange, h.2⟩
  | publishMessage message qos =>
      obtain rfl := Option.some.inj hstep
      exact h.publishMessage message hop hok
  | receivePuback messageId =>
      obtain rfl := Option.some.inj hstep
      exact h.receiveFinal hok
  | receivePubrec messageId =>
      obtain rfl := Option.some.inj hstep
      exact h.receivePubrec messageId
  | receivePubcomp messageId =>
      obtain rfl := Option.some.inj hstep
      exact h.receiveFinal hok
  | retry messageId =>
      obtain rfl := Option.some.inj hstep
      exact h.retry hok
  | publishCachedMessage =>
      obtain rfl := Option.some.inj hstep
      exact h.1.publishCachedMessage h.2 hok
  | disconnect =>
      obtain rfl := Option.some.inj hstep
      exact ⟨h.1.congr rfl rfl rfl h.1.inRange, h.2⟩
  | reuse =>
      obtain rfl := Option.some.inj hstep
      exact Inv.openWrapper ⟨h.1.congr rfl rfl rfl (MqttEndpoint.inRange_create _ _ _), h.2⟩ rfl
  | rebuild config =>
      obtain rfl := Option.some.inj hstep
      exact h.rebuild hok

lemma inv_init (config : Config) (clientId : Str) : Inv (init config clientId) := by
  refine Inv.openWrapper ⟨⟨fun uid => ?_, rfl, fun key m hkey => ?_, ?_, fun m hm => ?_⟩,
    openQueue_bounded _ _⟩ rfl
  · simp [PersistentSessionWrapper.new, openQueue, elsewhere, stored, BoundedIgniteMapUnsafe.reopen,
      BoundedIgniteMapUnsafe.create, Ledger.empty]
  · have hnone : (∅ : PlainMap ℤ MqttMessage).get key = some m := hkey
    exact absurd hnone (by simp)
  · exact MqttEndpoint.inRange_create _ _ _
  · simp [PersistentSessionWrapper.new, openQueue] at hm

/-- **Nothing is lost in a run whose steps meet the condition.**  For every configuration and
every sequence of operations, disconnects and reconnects whose steps meet `StepOk`: in every
state on the way every accepted message is in exactly one place. -/
theorem conserved_run (config : Config) (clientId : Str) (ops : List Op)
    (hops : ∀ op ∈ ops, op.Acknowledged) (hok : AllSteps step StepOk (init config clientId) ops)
    (before after : List Op) (hsplit : ops = before ++ after) (w : SessionWrapper .persistent)
    (hw : run step (init config clientId) before = some w) : Conserved w := by
  subst hsplit
  have hinv : Inv w := invariant_run
    (fun u op u' hmem hu hstep hrun => hu.step (hops op (mem_append_left _ hmem)) hstep hrun)
    (inv_init config clientId) hok.of_append hw
  exact hinv.1.conserved

/-- A message that is sent again after a reconnect and then acknowledged. -/
def retriedOps : List Op :=
  [.accept, .publishMessage sampleMessage .atLeastOnce, .disconnect, .reuse, .accept, .retry 1,
    .receivePuback 1]

theorem conserved_run_retried :
    Conserved ((run step (init sampleConfig "c".toList) retriedOps).get (by decide)) :=
  conserved_run sampleConfig "c".toList retriedOps (by decide) (by decide) retriedOps [] (by simp)
    _ (Option.some_get _).symm

/-- A message that is sent under the packet id of one that is stored from the connection before:
the older message is in none of the places. -/
theorem not_conserved_run :
    ¬∀ (config : Config) (clientId : Str) (ops : List Op), (∀ op ∈ ops, op.Acknowledged) →
      ∀ w, run step (init config clientId) ops = some w → Conserved w := by
  intro h
  have hrun : (run step (init sampleConfig "c".toList)
      [.accept, .publishMessage sampleMessage .atLeastOnce, .disconnect,
        .rebuild sampleConfig, .accept, .publishMessage sampleMessage .atLeastOnce]).map
      (fun w => (places w 0, w.ledger.accepted.length)) = some (0, 2) := by decide
  obtain ⟨w, hw, heq⟩ := Option.map_eq_some_iff.1 hrun
  have honce := (h _ _ _ (by decide) w hw).1 0
  rw [(Prod.mk.inj heq).1, (Prod.mk.inj heq).2] at honce
  exact absurd honce (by decide)

end PersistentSessionWrapper

end Stuart
