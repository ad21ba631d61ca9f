/-
The session wrappers: what a session sends, keeps and sends again.

`TransientSessionWrapper` and `PersistentSessionWrapper` share their methods but for a few
branches, so a wrapper is one structure over its kind.  The inflight messages of a transient
session are a map of its own, those of a persistent one are stored in a bounded map; the queue of
a transient session is a linked queue, that of a persistent one is stored.  Each method runs to
completion, so the flags `queueCas` and `inflightCas` are free when it starts and are left out,
and so are the metrics other than the dropped count.

The ledger is ghost state: it numbers the messages that are handed to `publishMessage` and notes
which of them were acknowledged or discarded.
-/
import Stuart.Ext.Collections
import Stuart.Entities.MqttMessage

namespace Stuart

open List Lib

/-- Which of the two classes a wrapper is of. -/
inductive SessionKind where
  | transient
  | persistent
deriving DecidableEq, Repr

/-- The inflight messages by packet id. -/
def Inflights : SessionKind → Type
  | .transient => PlainMap ℤ MqttMessage
  | .persistent => BoundedIgniteMapUnsafe ℤ MqttMessage

namespace Inflights

def get : {kind : SessionKind} → Inflights kind → ℤ → Option MqttMessage
  | .transient, m, key => PlainMap.get m key
  | .persistent, m, key => BoundedIgniteMapUnsafe.get m key

def put : {kind : SessionKind} → Inflights kind → ℤ → MqttMessage → Inflights kind
  | .transient, m, key, value => PlainMap.put m key value
  | .persistent, m, key, value => (BoundedIgniteMapUnsafe.put m key value).2

def remove : {kind : SessionKind} → Inflights kind → ℤ → Inflights kind
  | .transient, m, key => PlainMap.remove m key
  | .persistent, m, key => BoundedIgniteMapUnsafe.remove m key

/-- `isInflightFull`: the transient session asks the configuration, the persistent one its map. -/
def isFull (config : Config) : {kind : SessionKind} → Inflights kind → Bool
  | .transient, m => decide (config.sessionInflightMaxCapacity > 0 ∧
      ((PlainMap.values m).length : ℤ) ≥ config.sessionInflightMaxCapacity)
  | .persistent, m => BoundedIgniteMapUnsafe.isFull m

variable {kind : SessionKind} {m : Inflights kind} {key key' : ℤ} {value value' : MqttMessage}

/-- What is stored after a `put` is the new message or was stored before. -/
lemma get_put (h : (m.put key value).get key' = some value') :
    key' = key ∧ value' = value ∨ m.get key' = some value' := by
  cases kind with
  | transient => exact PlainMap.eq_or_get_of_get_put m h
  | persistent => exact BoundedIgniteMapUnsafe.eq_or_get_of_get_put m h

/-- What is stored after a `remove` was stored before. -/
lemma get_remove (h : (m.remove key).get key' = some value) : m.get key' = some value := by
  cases kind with
  | transient => exact PlainMap.get_of_get_remove m h
  | persistent => exact PlainMap.get_of_get_remove (BoundedIgniteMapUnsafe.cache m) h

end Inflights

structure Ledger where
  /-- the QoS of the accepted messages; the `uid` of a message is its place in this list -/
  accepted : List MqttQoS
  /-- the messages whose PUBACK or PUBCOMP was processed -/
  acknowledged : List ℕ
  /-- the messages that were given up -/
  discarded : List ℕ
  /-- the metric that counts the dropped messages -/
  droppedCount : ℕ
deriving DecidableEq

def Ledger.empty : Ledger := ⟨[], [], [], 0⟩

def Ledger.accept (l : Ledger) (qos : MqttQoS) : Ledger :=
  { l with accepted := l.accepted ++ [qos] }

def Ledger.acknowledge (l : Ledger) (message : Option MqttMessage) : Ledger :=
  { l with acknowledged := l.acknowledged ++ message.toList.map MqttMessage.uid }

def Ledger.discard (l : Ledger) (messages : List MqttMessage) (count : ℕ) : Ledger :=
  { l with
    discarded := l.discarded ++ messages.map MqttMessage.uid
    droppedCount := l.droppedCount + count }

structure SessionWrapper (kind : SessionKind) where
  config : Config
  thisClientId : Str
  endpoint : MqttEndpoint
  queue : BoundedQueue MqttMessage
  inflights : Inflights kind
  /-- the keys of the expiring map: the packet ids with a running retry timer -/
  timeouts : List ℤ
  ledger : Ledger

namespace SessionWrapper

variable {kind : SessionKind}

def isInflightFull (w : SessionWrapper kind) : Bool := w.inflights.isFull w.config

def saveInflightTimeout (w : SessionWrapper kind) (messageId : ℤ) : SessionWrapper kind :=
  { w with timeouts := w.timeouts.insert messageId }

def deleteInflightTimeout (w : SessionWrapper kind) (messageId : ℤ) : SessionWrapper kind :=
  { w with timeouts := w.timeouts.filter (· ≠ messageId) }

/-- `inflights.put`. -/
def putInflight (w : SessionWrapper kind) (messageId : ℤ) (message : MqttMessage) :
    SessionWrapper kind :=
  { w with inflights := w.inflights.put messageId message }

/-- `inflights.remove`. -/
def removeInflight (w : SessionWrapper kind) (messageId : ℤ) : SessionWrapper kind :=
  { w with inflights := w.inflights.remove messageId }

/-- The queue with other elements. -/
def setQueue (w : SessionWrapper kind) (items : List MqttMessage) : SessionWrapper kind :=
  { w with queue := { w.queue with items := items } }

def publish (w : SessionWrapper kind) (message : MqttMessage) (everPublished : Bool) :
    ℤ × SessionWrapper kind :=
  match w.endpoint.publish message.uid message.topic message.payload message.qos
      (if everPublished then true else message.dup) message.retain with
  | none => (MsgConst.PUBLISH_ERROR, w)
  | some endpoint =>
      (if message.qos = .atMostOnce then 0 else endpoint.lastMessageId,
        { w with endpoint := endpoint })

def publishRelease (w : SessionWrapper kind) (messageId : ℤ) : ℤ × SessionWrapper kind :=
  match w.endpoint.publishRelease messageId with
  | none => (MsgConst.PUBLISH_ERROR, w)
  | some endpoint => (messageId, { w with endpoint := endpoint })

/-- `queue.addExt`, of the queue of the kind. -/
def addExt (w : SessionWrapper kind) (message : MqttMessage) : ℤ × BoundedQueue MqttMessage :=
  match kind with
  | .transient => BoundedConcurrentLinkedQueue.addExt w.queue message
  | .persistent => BoundedIgniteQueue.addExt w.queue message

def enqueue (w : SessionWrapper kind) (message : MqttMessage) : ℤ × SessionWrapper kind :=
  let result := w.addExt message
  if result.1 ≥ 0 then
    (MsgConst.ENQUEUE_SUCCEEDED,
      { w with
        queue := result.2
        -- the elements that went out of the queue; the metric counts one if any did
        ledger := w.ledger.discard
          (w.queue.items.take (w.queue.items.length + 1 - result.2.items.length))
          (if result.1 = 0 then 0 else 1) })
  else (MsgConst.ENQUEUE_FAILED, w)

/-- The part of a round of `dequeue` after the poll.  The flag tells whether the loop goes on. -/
def sendPolled (w : SessionWrapper kind) (message : MqttMessage) : Bool × SessionWrapper kind :=
  let published := w.publish message false
  if message.qos = .atMostOnce ∧ published.1 ≠ 0 then (false, published.2)
  else
    -- a message of QoS 0 that was sent goes on to the second branch as well
    let w := if message.qos = .atMostOnce then published.2 else w
    let messageId := IdUtil.nextMessageId w.endpoint
    let message' := { message with messageId := messageId }
    if messageId > 0 then
      (true, ((((w.putInflight messageId message').saveInflightTimeout messageId).publish message'
        false).2))
    else if kind = .persistent then (false, w.putInflight messageId message')
    else (false, w)

/-- The loop of `dequeue` over what is left of the queue. -/
def dequeueFrom (w : SessionWrapper kind) : List MqttMessage → SessionWrapper kind
  | [] => w.setQueue []
  | message :: rest =>
      if !w.endpoint.isConnected || w.isInflightFull then w.setQueue (message :: rest)
      else
        match (w.setQueue rest).sendPolled message with
        | (true, w') => w'.dequeueFrom rest
        | (false, w') => w'

def dequeue (w : SessionWrapper kind) : SessionWrapper kind := w.dequeueFrom w.queue.items

def publishCachedMessage (w : SessionWrapper kind) : SessionWrapper kind := w.dequeue

def inflight (w : SessionWrapper kind) (message : MqttMessage) : ℤ × SessionWrapper kind :=
  if !w.queue.items.isEmpty || w.isInflightFull then w.enqueue message
  else
    let messageId := IdUtil.nextMessageId w.endpoint
    if messageId > 0 then
      let message' := { message with messageId := messageId }
      ((w.putInflight messageId message').saveInflightTimeout messageId).publish message' false
    else w.enqueue message

def handleMessage (w : SessionWrapper kind) (message : MqttMessage) : ℤ × SessionWrapper kind :=
  if message.qos = .atMostOnce then
    if w.config.sessionQueueStoreQos0 && !w.queue.items.isEmpty then w.enqueue message
    else w.publish message false
  else w.inflight message

/-- The copy of a message that a session keeps: its own client id and QoS, and the next number
of the ledger. -/
def copyMqttMessage (w : SessionWrapper kind) (message : MqttMessage) (qos : MqttQoS) :
    MqttMessage :=
  { message with uid := w.ledger.accepted.length, clientId := w.thisClientId, qos := qos }

def publishMessage (w : SessionWrapper kind) (message : MqttMessage) (qos : MqttQoS) :
    SessionWrapper kind :=
  let mqttMessage := w.copyMqttMessage message qos
  let result := { w with ledger := w.ledger.accept qos }.handleMessage mqttMessage
  if result.1 = MsgConst.ENQUEUE_SUCCEEDED then result.2.publishCachedMessage else result.2

/-- What PUBACK and PUBCOMP do alike: the message is done, and there is room for the next. -/
def receiveFinal (w : SessionWrapper kind) (messageId : ℤ) : SessionWrapper kind :=
  publishCachedMessage
    ({ w with ledger := w.ledger.acknowledge (w.inflights.get messageId) }.removeInflight
      messageId |>.deleteInflightTimeout messageId)

def receivePuback (w : SessionWrapper kind) (messageId : ℤ) : SessionWrapper kind :=
  w.receiveFinal messageId

def receivePubcomp (w : SessionWrapper kind) (messageId : ℤ) : SessionWrapper kind :=
  w.receiveFinal messageId

def receivePubrec (w : SessionWrapper kind) (messageId : ℤ) : SessionWrapper kind :=
  match w.inflights.get messageId with
  | none => w
  | some message => w.putInflight messageId { message with status := MsgConst.PUBREC_STATUS }

def retryInflight (w : SessionWrapper kind) (message : MqttMessage) : ℤ × SessionWrapper kind :=
  let old := message.messageId
  let retried := { message with retry := message.retry + 1 }
  if message.qos = .exactlyOnce ∧ message.status = MsgConst.PUBREC_STATUS then
    -- the message was received: only its release is sent again
    ((w.putInflight old retried).saveInflightTimeout old).publishRelease old
  else
    let messageId := IdUtil.nextMessageId w.endpoint
    if messageId > 0 then
      -- sent again under a new id
      let retried := { retried with messageId := messageId }
      (((w.removeInflight old).putInflight messageId retried).saveInflightTimeout
        messageId).publish retried true
    else if kind = .persistent then
      (MsgConst.PUBLISH_ERROR, (w.putInflight old retried).saveInflightTimeout old)
    else (MsgConst.PUBLISH_ERROR, w)

def retry (w : SessionWrapper kind) (messageId : ℤ) : SessionWrapper kind :=
  match w.inflights.get messageId with
  | none => w
  | some message =>
      if message.retry ≥ w.config.sessionInflightMaxRetries then
        publishCachedMessage
          ({ w with ledger := w.ledger.discard [message] 1 }.removeInflight messageId)
      else (w.retryInflight message).2

/-! ### What sending changes -/

variable (w : SessionWrapper kind)

/-- A PUBLISH on a connected endpoint takes the next packet id. -/
lemma publish_of_connected (message : MqttMessage) (everPublished : Bool)
    (h : w.endpoint.isConnected = true) :
    w.publish message everPublished =
      (if message.qos = .atMostOnce then 0 else nextId w.endpoint.lastMessageId,
        { w with endpoint := { w.endpoint with
            lastMessageId := nextId w.endpoint.lastMessageId
            written := w.endpoint.written ++ [.publish (nextId w.endpoint.lastMessageId)
              message.uid message.topic message.payload message.qos
              (if everPublished then true else message.dup) message.retain] } }) := by
  simp only [publish, MqttEndpoint.publish]
  rw [if_pos h]

lemma publish_of_not_connected (message : MqttMessage) (everPublished : Bool)
    (h : w.endpoint.isConnected = false) :
    w.publish message everPublished = (MsgConst.PUBLISH_ERROR, w) := by
  simp only [publish, MqttEndpoint.publish]
  rw [if_neg (by simp [h])]

lemma publish_endpoint (message : MqttMessage) (everPublished : Bool)
    (h : w.endpoint.isConnected = true) :
    (w.publish message everPublished).2.endpoint.isConnected = true ∧
      (w.publish message everPublished).2.endpoint.lastMessageId =
        nextId w.endpoint.lastMessageId := by
  rw [publish_of_connected w message everPublished h]
  exact ⟨h, rfl⟩

lemma publish_fst {message : MqttMessage} (everPublished : Bool)
    (h : w.endpoint.isConnected = true) (hq : message.qos ≠ .atMostOnce) :
    (w.publish message everPublished).1 = nextId w.endpoint.lastMessageId := by
  rw [publish_of_connected w message everPublished h]
  exact if_neg hq

lemma publishRelease_of_connected (messageId : ℤ) (h : w.endpoint.isConnected = true) :
    w.publishRelease messageId = (messageId, { w with endpoint := { w.endpoint with
      written := w.endpoint.written ++ [.pubrel messageId] } }) := by
  simp only [publishRelease, MqttEndpoint.publishRelease]
  rw [if_pos h]

lemma publishRelease_of_not_connected (messageId : ℤ) (h : w.endpoint.isConnected = false) :
    w.publishRelease messageId = (MsgConst.PUBLISH_ERROR, w) := by
  simp only [publishRelease, MqttEndpoint.publishRelease]
  rw [if_neg (by simp [h])]

/-- `addExt` puts the message last and may only take others out. -/
lemma addExt_sublist (message : MqttMessage) :
    (w.addExt message).2.items <+ w.queue.items ++ [message] := by
  have hloop : ∀ (capacity count : ℤ) (items : List MqttMessage),
      (BoundedIgniteQueue.offerExtFrom capacity message count items).2.items <+
        items ++ [message] := by
    intro capacity count items
    induction items generalizing count with
    | nil => exact Sublist.refl _
    | cons first rest ih =>
        simp only [BoundedIgniteQueue.offerExtFrom]
        split_ifs
        · exact (ih 1).trans (sublist_cons_self _ _)
        · exact Sublist.refl _
  cases kind with
  | persistent => exact hloop _ _ _
  | transient => exact BoundedConcurrentLinkedQueue.addExt_sublist _ _

/-- What a round of `dequeue` can do with the polled message: it has sent a message of QoS 0
already, and then it stops, or only stores the message, or stores and sends it. -/
lemma sendPolled_cases (message : MqttMessage) :
    ∃ w₀ : SessionWrapper kind,
      (w₀ = w ∨ message.qos = .atMostOnce ∧ w₀ = (w.publish message false).2) ∧
      ((w.sendPolled message).2 = w₀ ∨ ∃ messageId,
        (w.sendPolled message).2 =
          w₀.putInflight messageId { message with messageId := messageId } ∨
        (w.sendPolled message).2 = (((w₀.putInflight messageId
          { message with messageId := messageId }).saveInflightTimeout messageId).publish
            { message with messageId := messageId } false).2) := by
  rw [sendPolled]
  dsimp only
  by_cases hq : message.qos = .atMostOnce
  · refine ⟨(w.publish message false).2, Or.inr ⟨hq, rfl⟩, ?_⟩
    by_cases hp : (w.publish message false).1 ≠ 0
    · exact Or.inl (by rw [if_pos ⟨hq, hp⟩])
    · rw [if_neg fun h => hp h.2, if_pos hq]
      split_ifs
      · exact Or.inr ⟨_, Or.inr rfl⟩
      · exact Or.inr ⟨_, Or.inl rfl⟩
      · exact Or.inl rfl
  · refine ⟨w, Or.inl rfl, ?_⟩
    rw [if_neg fun h => hq h.1, if_neg hq]
    split_ifs
    · exact Or.inr ⟨_, Or.inr rfl⟩
    · exact Or.inr ⟨_, Or.inl rfl⟩
    · exact Or.inl rfl

section Frame

variable (message : MqttMessage) (everPublished : Bool) (messageId : ℤ)

@[simp] lemma publish_queue : (w.publish message everPublished).2.queue = w.queue := by
  simp only [publish]
  split <;> rfl

@[simp] lemma publish_inflights : (w.publish message everPublished).2.inflights = w.inflights := by
  simp only [publish]
  split <;> rfl

@[simp] lemma publish_ledger : (w.publish message everPublished).2.ledger = w.ledger := by
  simp only [publish]
  split <;> rfl

@[simp] lemma publishRelease_queue : (w.publishRelease messageId).2.queue = w.queue := by
  simp only [publishRelease]
  split <;> rfl

@[simp] lemma publishRelease_inflights :
    (w.publishRelease messageId).2.inflights = w.inflights := by
  simp only [publishRelease]
  split <;> rfl

@[simp] lemma publishRelease_ledger : (w.publishRelease messageId).2.ledger = w.ledger := by
  simp only [publishRelease]
  split <;> rfl

@[simp] lemma publishRelease_lastMessageId :
    (w.publishRelease messageId).2.endpoint.lastMessageId = w.endpoint.lastMessageId := by
  simp only [publishRelease, MqttEndpoint.publishRelease]
  split_ifs <;> rfl

@[simp] lemma sendPolled_queue : (w.sendPolled message).2.queue = w.queue := by
  obtain ⟨w₀, hw₀, hcases⟩ := sendPolled_cases w message
  have hqueue : w₀.queue = w.queue := by
    rcases hw₀ with rfl | ⟨-, rfl⟩
    · rfl
    · exact publish_queue _ _ _
  rcases hcases with h | ⟨messageId, h | h⟩
  · rw [h, hqueue]
  · rw [h]
    exact hqueue
  · rw [h, publish_queue]
    exact hqueue

end Frame

/-- A retry leaves the queue alone. -/
@[simp] lemma retryInflight_queue (message : MqttMessage) :
    (w.retryInflight message).2.queue = w.queue := by
  rw [retryInflight]
  dsimp only
  split_ifs
  · exact publishRelease_queue _ _
  · exact publish_queue _ _ _
  · rfl
  · rfl

@[simp] lemma retryInflight_ledger (message : MqttMessage) :
    (w.retryInflight message).2.ledger = w.ledger := by
  rw [retryInflight]
  dsimp only
  split_ifs
  · exact publishRelease_ledger _ _
  · exact publish_ledger _ _ _
  · rfl
  · rfl

/-- A retry sends nothing while the endpoint is not connected. -/
lemma retryInflight_endpoint (hc : w.endpoint.isConnected = false) (message : MqttMessage) :
    (w.retryInflight message).2.endpoint = w.endpoint := by
  rw [retryInflight]
  dsimp only
  rw [nextMessageId_of_not_connected hc]
  split_ifs
  · rw [publishRelease_of_not_connected]
    · rfl
    · exact hc
  · contradiction
  · rfl
  · rfl

/-- A message that is stored under the next packet id and sent. -/
def sent (message : MqttMessage) : SessionWrapper kind :=
  let message' := { message with messageId := nextId w.endpoint.lastMessageId }
  (((w.putInflight (nextId w.endpoint.lastMessageId) message').saveInflightTimeout
    (nextId w.endpoint.lastMessageId)).publish message' false).2

variable {w}

lemma sent_endpoint (hc : w.endpoint.isConnected = true) (message : MqttMessage) :
    (w.sent message).endpoint.isConnected = true ∧
      (w.sent message).endpoint.lastMessageId = nextId w.endpoint.lastMessageId :=
  publish_endpoint _ _ _ hc

@[simp] lemma sent_queue (message : MqttMessage) : (w.sent message).queue = w.queue :=
  publish_queue _ _ _

@[simp] lemma sent_ledger (message : MqttMessage) : (w.sent message).ledger = w.ledger :=
  publish_ledger _ _ _

lemma sent_inflights (message : MqttMessage) :
    (w.sent message).inflights = w.inflights.put (nextId w.endpoint.lastMessageId)
      { message with messageId := nextId w.endpoint.lastMessageId } :=
  publish_inflights _ _ _

/-- A message of QoS 1 or 2 that `dequeue` takes is sent. -/
lemma sendPolled_eq (hc : w.endpoint.isConnected = true) (hr : w.endpoint.InRange)
    {message : MqttMessage} (hq : message.qos ≠ .atMostOnce) :
    w.sendPolled message = (true, w.sent message) := by
  obtain ⟨hid, hpos⟩ := nextMessageId_of_connected hc hr
  rw [hid] at hpos
  simp only [sendPolled, sent]
  simp only [hq, false_and, if_false, hid]
  rw [if_pos hpos]

/-- With nothing queued and room in the window a message is sent at once. -/
lemma inflight_of_room (hempty : w.queue.items = []) (hfull : w.isInflightFull = false)
    (hc : w.endpoint.isConnected = true) (hr : w.endpoint.InRange) {message : MqttMessage}
    (hq : message.qos ≠ .atMostOnce) :
    w.inflight message = (nextId w.endpoint.lastMessageId, w.sent message) := by
  obtain ⟨hid, hpos⟩ := nextMessageId_of_connected hc hr
  rw [hid] at hpos
  simp only [inflight]
  rw [if_neg (by simp [hempty, hfull])]
  simp only [hid]
  rw [if_pos hpos]
  refine Prod.ext ?_ rfl
  exact publish_fst _ _ hc hq

/-- Otherwise it is enqueued. -/
lemma inflight_of_wait {message : MqttMessage}
    (h : w.queue.items ≠ [] ∨ w.isInflightFull = true ∨ w.endpoint.isConnected = false) :
    w.inflight message = w.enqueue message := by
  simp only [inflight]
  by_cases hstop : (!w.queue.items.isEmpty || w.isInflightFull) = true
  · rw [if_pos hstop]
  · simp only [Bool.or_eq_true, Bool.not_eq_true', not_or, Bool.not_eq_false, Bool.not_eq_true]
      at hstop
    have hc : w.endpoint.isConnected = false := by
      rcases h with h | h | h
      · exact absurd (List.isEmpty_iff.1 hstop.1) h
      · simp [hstop.2] at h
      · exact h
    rw [if_neg (by simp [hstop.1, hstop.2]), nextMessageId_of_not_connected hc]
    exact if_neg (by decide)

end SessionWrapper

namespace TransientSessionWrapper

/-- The constructor. -/
def new (config : Config) (endpoint : MqttEndpoint) : SessionWrapper .transient :=
  { config := config, thisClientId := endpoint.clientIdentifier, endpoint := endpoint
    queue := ⟨config.sessionQueueMaxCapacity, []⟩
    inflights := (∅ : PlainMap ℤ MqttMessage)
    timeouts := []
    ledger := .empty }

end TransientSessionWrapper

/-- `QueueCacheImpl.open` on a stored queue: a queue of the configured capacity with the newest of
the old items that fit in. -/
def openQueue (capacity : ℤ) (old : List MqttMessage) : BoundedQueue MqttMessage :=
  ⟨capacity, if capacity > 0 ∧ (old.length : ℤ) > capacity then
    old.drop (old.length - capacity.toNat) else old⟩

lemma openQueue_bounded (capacity : ℤ) (old : List MqttMessage) :
    (openQueue capacity old).Bounded := by
  intro hpos
  rw [openQueue] at hpos ⊢
  simp only at hpos ⊢
  split_ifs with h
  · rw [length_drop]
    omega
  · omega

lemma openQueue_sublist (capacity : ℤ) (old : List MqttMessage) :
    (openQueue capacity old).items <+ old := by
  rw [openQueue]
  dsimp only
  split_ifs
  · exact drop_sublist _ _
  · exact Sublist.refl _

namespace PersistentSessionWrapper

/-- The constructor, over the stored queue and the stored inflight messages. -/
def new (config : Config) (endpoint : MqttEndpoint) (queue : List MqttMessage)
    (inflights : BoundedIgniteMapUnsafe ℤ MqttMessage) (ledger : Ledger) :
    SessionWrapper .persistent :=
  { config := config, thisClientId := endpoint.clientIdentifier, endpoint := endpoint
    queue := openQueue config.sessionQueueMaxCapacity queue
    inflights := inflights.reopen config.sessionInflightMaxCapacity
    timeouts := []
    ledger := ledger }

/-- `retryInflight()`: every stored inflight message once. -/
def retryInflights (w : SessionWrapper .persistent) : SessionWrapper .persistent :=
  (BoundedIgniteMapUnsafe.set w.inflights).foldl (fun w key =>
    match w.inflights.get key with
    | none => w
    | some message => (w.retryInflight message).2) w

/-- What the retry of a stored message keeps, `retryInflights` keeps. -/
lemma retryInflights_induction {P : SessionWrapper .persistent → Prop}
    (hretry : ∀ w key message, P w → w.inflights.get key = some message →
      P (w.retryInflight message).2)
    {w : SessionWrapper .persistent} (h : P w) : P (retryInflights w) := by
  simp only [PersistentSessionWrapper.retryInflights]
  generalize BoundedIgniteMapUnsafe.set w.inflights = keys
  induction keys generalizing w with
  | nil => exact h
  | cons key keys ih =>
      rw [foldl_cons]
      cases hget : w.inflights.get key with
      | none => exact ih h
      | some message => exact ih (hretry w key message h hget)

@[simp] lemma retryInflights_queue (w : SessionWrapper .persistent) :
    (retryInflights w).queue = w.queue :=
  @retryInflights_induction (fun w' => w'.queue = w.queue)
    (fun w' _ message h _ => (SessionWrapper.retryInflight_queue w' message).trans h) w rfl

/-- `open()`; the routers of the client are not part of the wrapper. -/
def openWrapper (w : SessionWrapper .persistent) : SessionWrapper .persistent :=
  (retryInflights w).publishCachedMessage

def refreshEndpoint (w : SessionWrapper .persistent) (endpoint : MqttEndpoint) :
    SessionWrapper .persistent := { w with endpoint := endpoint }

end PersistentSessionWrapper

/-- The configuration, the message and the endpoint of the sample runs. -/
def sampleConfig : Config := ⟨false, 10, 10, 3, 10⟩

def sampleMessage : MqttMessage :=
  ⟨0, [], 0, "t".toList, [], .atLeastOnce, false, false, 0, 0⟩

def sampleEndpoint : MqttEndpoint :=
  { MqttEndpoint.create 0 "c".toList true with isConnected := true }

end Stuart
