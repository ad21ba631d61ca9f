/-
Whether the packet id of a message is a new one.

A transient session asks the endpoint for the next packet id at three places: in `inflight`, in
each round of `dequeue` and in `retryInflight`.  Nobody looks whether a message is stored under
that id already.  The ids are those of a cyclic counter that every PUBLISH advances, those of QoS
0 as well, so the id of a stored message comes again when the PUBLISHes since its own last one
make a whole cycle.  `Take` is one moment at which an id is chosen, and `takes` lists these
moments of a call.  The id that is chosen is that of another stored message exactly when that
message was sent a multiple of 65535 PUBLISHes before (`fresh_iff`).
-/
import Stuart.Sessions.ExactlyOnce
import Stuart.Sessions.SessionFrame

namespace Stuart

open List Lib

namespace TransientSessionWrapper

open SessionWrapper

/-! ### The moments at which an id is chosen -/

/-- A moment at which `IdUtil.nextMessageId` is called: the wrapper, and the message that the id
is for. -/
structure Take where
  wrapper : SessionWrapper .transient
  message : MqttMessage

/-- `sendPolled` asks for an id unless a message of QoS 0, which it sends first, cannot be sent. -/
def sendPolledTakes (w : SessionWrapper .transient) (message : MqttMessage) : List Take :=
  let published := w.publish message false
  if message.qos = .atMostOnce ∧ published.1 ≠ 0 then []
  else [⟨if message.qos = .atMostOnce then published.2 else w, message⟩]

def dequeueTakesFrom (w : SessionWrapper .transient) : List MqttMessage → List Take
  | [] => []
  | message :: rest =>
      if !w.endpoint.isConnected || w.isInflightFull then []
      else sendPolledTakes (w.setQueue rest) message ++
        match (w.setQueue rest).sendPolled message with
        | (true, w') => dequeueTakesFrom w' rest
        | (false, _) => []

def dequeueTakes (w : SessionWrapper .transient) : List Take := dequeueTakesFrom w w.queue.items

def inflightTakes (w : SessionWrapper .transient) (message : MqttMessage) : List Take :=
  if !w.queue.items.isEmpty || w.isInflightFull then [] else [⟨w, message⟩]

def handleMessageTakes (w : SessionWrapper .transient) (message : MqttMessage) : List Take :=
  if message.qos = .atMostOnce then [] else inflightTakes w message

def publishMessageTakes (w : SessionWrapper .transient) (message : MqttMessage) (qos : MqttQoS) :
    List Take :=
  let mqttMessage := w.copyMqttMessage message qos
  let accepted := { w with ledger := w.ledger.accept qos }
  let result := accepted.handleMessage mqttMessage
  handleMessageTakes accepted mqttMessage ++
    if result.1 = MsgConst.ENQUEUE_SUCCEEDED then dequeueTakes result.2 else []

def receiveFinalTakes (w : SessionWrapper .transient) (messageId : ℤ) : List Take :=
  dequeueTakes
    ({ w with ledger := w.ledger.acknowledge (w.inflights.get messageId) }.removeInflight
      messageId |>.deleteInflightTimeout messageId)

def retryInflightTakes (w : SessionWrapper .transient) (message : MqttMessage) : List Take :=
  if message.qos = .exactlyOnce ∧ message.status = MsgConst.PUBREC_STATUS then []
  else [⟨w, message⟩]

def retryTakes (w : SessionWrapper .transient) (messageId : ℤ) : List Take :=
  match w.inflights.get messageId with
  | none => []
  | some message =>
      if message.retry ≥ w.config.sessionInflightMaxRetries then
        dequeueTakes ({ w with ledger := w.ledger.discard [message] 1 }.removeInflight messageId)
      else retryInflightTakes w message

/-! ### Runs -/

inductive Op where
  | publishMessage (message : MqttMessage) (qos : MqttQoS)
  | receivePuback (messageId : ℤ)
  | receivePubrec (messageId : ℤ)
  | receivePubcomp (messageId : ℤ)
  | retry (messageId : ℤ)
  | publishCachedMessage

def step (w : SessionWrapper .transient) : Op → Option (SessionWrapper .transient)
  | .publishMessage message qos => some (w.publishMessage message qos)
  | .receivePuback messageId => some (w.receivePuback messageId)
  | .receivePubrec messageId => some (w.receivePubrec messageId)
  | .receivePubcomp messageId => some (w.receivePubcomp messageId)
  | .retry messageId => some (w.retry messageId)
  | .publishCachedMessage => some w.publishCachedMessage

/-- The moments at which a call chooses an id. -/
def takes (w : SessionWrapper .transient) : Op → List Take
  | .publishMessage message qos => publishMessageTakes w message qos
  | .receivePuback messageId | .receivePubcomp messageId => receiveFinalTakes w messageId
  | .receivePubrec _ => []
  | .retry messageId => retryTakes w messageId
  | .publishCachedMessage => dequeueTakes w

/-- The id is not the key of another message, and storing the message under it replaces none. -/
structure Take.Fresh (t : Take) : Prop where
  chosen : ∀ message ∈ t.wrapper.inflights.get (IdUtil.nextMessageId t.wrapper.endpoint),
    message.uid = t.message.uid
  kept : ∀ key, ∀ message ∈ t.wrapper.inflights.get key, message.uid ≠ t.message.uid →
    message ∈ (t.wrapper.putInflight (IdUtil.nextMessageId t.wrapper.endpoint)
      t.message).inflights.get key

/-- How many PUBLISHes were sent after the last one of a message. -/
def since (w : SessionWrapper .transient) (uid : ℕ) : ℕ :=
  (Delivery.onWire w.endpoint.written).reverse.idxOf uid

/-- The next PUBLISH is not a whole number of cycles after the last one of another stored
message. -/
def Take.Ok (t : Take) : Prop :=
  ∀ key, ∀ message ∈ t.wrapper.inflights.get key, message.uid ≠ t.message.uid →
    ¬65535 ∣ since t.wrapper message.uid + 1

/-! ### The invariant -/

/-- The numbers of the messages that are stored and of those in the queue `items`. -/
def uids (w : SessionWrapper .transient) (items : List MqttMessage) : List ℕ :=
  items.map MqttMessage.uid ++ (PlainMap.values w.inflights).map MqttMessage.uid

/-- A packet id is the one that the last PUBLISH of a message took. -/
def Issued (w : SessionWrapper .transient) (messageId : ℤ) (uid : ℕ) : Prop :=
  (1 ≤ messageId ∧ messageId ≤ MsgConst.MAX_MESSAGE_ID) ∧
    w.endpoint.lastMessageId = nextId^[since w uid] messageId

/-- A connected wrapper with the queue `items`: no message is there twice, and each is stored under
the id of its last PUBLISH. -/
structure Stamped (w : SessionWrapper .transient) (items : List MqttMessage) : Prop where
  connected : w.endpoint.isConnected = true
  inRange : w.endpoint.InRange
  known : ∀ uid ∈ uids w items, uid < w.ledger.accepted.length
  nodup : (uids w items).Nodup
  issued : ∀ key message, w.inflights.get key = some message →
    message.messageId = key ∧ Issued w key message.uid

variable {w w' : SessionWrapper .transient} {items items' : List MqttMessage}
  {message : MqttMessage}

/-- The condition is exact at every moment that the invariant holds. -/
lemma Take.ok_iff_fresh {t : Take} (h : Stamped t.wrapper items) : t.Ok ↔ t.Fresh := by
  have hnext := (nextMessageId_of_connected h.connected h.inRange).1
  -- the id comes round to the key of a message after a whole number of cycles
  have hround : ∀ key message, t.wrapper.inflights.get key = some message →
      (nextId t.wrapper.endpoint.lastMessageId = key ↔
        65535 ∣ since t.wrapper message.uid + 1) := by
    intro key message hget
    obtain ⟨-, hrange, hlast⟩ := h.issued key message hget
    rw [hlast, ← Function.iterate_succ_apply' nextId, nextId_iterate_eq_self_iff hrange]
  constructor
  · intro hok
    have hchosen : ∀ message ∈ t.wrapper.inflights.get
        (IdUtil.nextMessageId t.wrapper.endpoint), message.uid = t.message.uid := by
      rw [hnext]
      intro message hget
      by_contra hne
      exact hok _ message hget hne ((hround _ message hget).1 rfl)
    refine ⟨hchosen, fun key message hget hne => ?_⟩
    have hkey : key ≠ IdUtil.nextMessageId t.wrapper.endpoint := by
      rintro rfl
      exact hne (hchosen message hget)
    exact (PlainMap.get_put_of_ne _ hkey _).trans hget
  · rintro ⟨hchosen, -⟩ key message hget hne hdvd
    have hkey := (hround key message hget).2 hdvd
    rw [← hkey, ← hnext] at hget
    exact hne (hchosen message hget)

lemma uids_subperm_of_sublist (h : items' <+ items) : uids w items' <+~ uids w items :=
  ((h.map _).append_right _).subperm

/-- Messages may go away, and what is stored may change in its status and its retries. -/
lemma Stamped.of_subperm (h : Stamped w items) (hsub : uids w' items' <+~ uids w items)
    (hendpoint : w'.endpoint.isConnected = w.endpoint.isConnected ∧
      w'.endpoint.lastMessageId = w.endpoint.lastMessageId)
    (hwire : Delivery.onWire w'.endpoint.written = Delivery.onWire w.endpoint.written)
    (hacc : w'.ledger.accepted = w.ledger.accepted)
    (hget : ∀ key message', w'.inflights.get key = some message' → ∃ message,
      w.inflights.get key = some message ∧ message'.uid = message.uid ∧
        message'.messageId = message.messageId) :
    Stamped w' items' where
  connected := hendpoint.1.trans h.connected
  inRange := by
    simp only [MqttEndpoint.InRange]
    rw [hendpoint.2]
    exact h.inRange
  known := by
    intro uid huid
    rw [hacc]
    exact h.known uid (hsub.subset huid)
  nodup := by
    obtain ⟨l, hperm, hsublist⟩ := hsub
    exact (hperm.nodup_iff).1 (h.nodup.sublist hsublist)
  issued := by
    intro key message' hkey
    obtain ⟨message, hmessage, huid, hid⟩ := hget key message' hkey
    obtain ⟨hkeyed, hrange, hlast⟩ := h.issued key message hmessage
    refine ⟨hid.trans hkeyed, hrange, ?_⟩
    simp only [since] at hlast ⊢
    rw [hendpoint.2, hwire, huid]
    exact hlast

/-- A queue that has lost messages. -/
lemma Stamped.drop (h : Stamped w items) (hsub : items' <+ items) : Stamped w items' :=
  h.of_subperm (uids_subperm_of_sublist hsub) ⟨rfl, rfl⟩ rfl rfl
    fun _ message hget => ⟨message, hget, rfl, rfl⟩

/-- The fields that the invariant does not look at. -/
lemma Stamped.congr (h : Stamped w items) (hinflights : w'.inflights = w.inflights)
    (hendpoint : w'.endpoint = w.endpoint) (hacc : w'.ledger.accepted = w.ledger.accepted) :
    Stamped w' items := by
  refine h.of_subperm ?_ ⟨by rw [hendpoint], by rw [hendpoint]⟩ (by rw [hendpoint]) hacc ?_
  · simp only [uids]
    rw [hinflights]
  · intro key message hget
    rw [hinflights] at hget
    exact ⟨message, hget, rfl, rfl⟩

lemma Stamped.removeInflight (h : Stamped w items) (messageId : ℤ) :
    Stamped (w.removeInflight messageId) items := by
  refine h.of_subperm ?_ ⟨rfl, rfl⟩ rfl rfl fun key message hget =>
    ⟨message, Inflights.get_remove hget, rfl, rfl⟩
  exact (subperm_append_left _).2 ((PlainMap.values_remove_sublist _ _).map _).subperm

/-! ### Sending -/

/-- A PUBLISH is the last one of its message, and one more after the last of any other. -/
lemma since_publish (hc : w.endpoint.isConnected = true) (everPublished : Bool) (uid : ℕ) :
    since (w.publish message everPublished).2 uid =
      if message.uid = uid then 0 else since w uid + 1 := by
  simp only [since]
  rw [Delivery.onWire_publish, if_pos hc, reverse_append, reverse_singleton, singleton_append]
  split_ifs with h
  · rw [h, idxOf_cons_self]
  · exact idxOf_cons_ne _ h

/-- After its PUBLISH a message has the id that was the next one; all other ids stay. -/
lemma stamped_publish (hc : w.endpoint.isConnected = true) (hr : w.endpoint.InRange)
    (hknown : ∀ uid ∈ uids w items, uid < w.ledger.accepted.length) (hnodup : (uids w items).Nodup)
    (hissued : ∀ key other, w.inflights.get key = some other → other.messageId = key ∧
      if message.uid = other.uid then key = nextId w.endpoint.lastMessageId
      else Issued w key other.uid)
    (everPublished : Bool) : Stamped (w.publish message everPublished).2 items := by
  obtain ⟨hconnected, hlast⟩ := publish_endpoint w message everPublished hc
  have hrange := nextId_range hr
  have huids : uids (w.publish message everPublished).2 items = uids w items := by
    simp only [uids]
    rw [publish_inflights]
  refine ⟨hconnected, ?_, ?_, huids ▸ hnodup, fun key other hget => ?_⟩
  · simp only [MqttEndpoint.InRange]
    rw [hlast]
    exact ⟨by omega, hrange.2⟩
  · rw [huids, publish_ledger]
    exact hknown
  · rw [publish_inflights] at hget
    obtain ⟨hkeyed, hother⟩ := hissued key other hget
    refine ⟨hkeyed, ?_⟩
    simp only [Issued]
    rw [hlast, since_publish hc]
    split_ifs at hother ⊢ with heq
    · exact ⟨hother ▸ hrange, hother.symm⟩
    · obtain ⟨hbounds, hstamp⟩ := hother
      rw [Function.iterate_succ_apply', ← hstamp]
      exact ⟨hbounds, rfl⟩

/-- A message that is not stored is sent. -/
lemma Stamped.publish (h : Stamped w items)
    (hnew : message.uid ∉ (PlainMap.values w.inflights).map MqttMessage.uid)
    (everPublished : Bool) : Stamped (w.publish message everPublished).2 items := by
  refine stamped_publish h.connected h.inRange h.known h.nodup (fun key other hget => ?_) _
  have hne : message.uid ≠ other.uid := fun heq =>
    hnew (heq ▸ mem_map_of_mem ((PlainMap.mem_values_iff _ _).2 ⟨key, hget⟩))
  rw [if_neg hne]
  exact h.issued key other hget

/-- A message that is nowhere else is stored under the next id and sent. -/
lemma Stamped.store (h : Stamped w items) (hnew : message.uid ∉ uids w items)
    (hlt : message.uid < w.ledger.accepted.length)
    (hid : message.messageId = nextId w.endpoint.lastMessageId) (everPublished : Bool) :
    Stamped (((w.putInflight message.messageId message).saveInflightTimeout
      message.messageId).publish message everPublished).2 items := by
  have hsub : uids (w.putInflight message.messageId message) items <+~
      message.uid :: uids w items :=
    ((PlainMap.values_put_sublist _ _ _).map MqttMessage.uid |>.append_left _).subperm.trans
      perm_middle.subperm
  refine @stamped_publish ((w.putInflight message.messageId message).saveInflightTimeout
    message.messageId) items message h.connected h.inRange (fun uid huid => ?_) ?_
    (fun key other hget => ?_) _
  · rcases mem_cons.1 (hsub.subset huid) with rfl | hmem
    · exact hlt
    · exact h.known uid hmem
  · obtain ⟨l, hperm, hsublist⟩ := hsub
    exact hperm.nodup_iff.1 ((nodup_cons.2 ⟨hnew, h.nodup⟩).sublist hsublist)
  · rcases Inflights.get_put hget with ⟨rfl, rfl⟩ | hold
    · rw [if_pos rfl]
      exact ⟨rfl, hid⟩
    · have hne : message.uid ≠ other.uid := fun heq => hnew (mem_append_right _
        (heq ▸ mem_map_of_mem ((PlainMap.mem_values_iff _ _).2 ⟨key, hold⟩)))
      rw [if_neg hne]
      exact h.issued key other hold

/-! ### The methods -/

/-- The wrapper after the PUBLISH that a polled message of QoS 0 begins with. -/
def polled (w : SessionWrapper .transient) (message : MqttMessage) : SessionWrapper .transient :=
  if message.qos = .atMostOnce then (w.publish message false).2 else w

/-- One id is chosen for a polled message that is sent. -/
lemma sendPolledTakes_of_connected (hc : w.endpoint.isConnected = true) :
    sendPolledTakes w message = [⟨polled w message, message⟩] := by
  simp only [polled, sendPolledTakes]
  by_cases hq : message.qos = .atMostOnce
  · have hzero : (w.publish message false).1 = 0 := by
      rw [publish_of_connected w message false hc, hq]
      rfl
    rw [if_neg (fun h => h.2 hzero)]
  · rw [if_neg (fun h => hq h.1)]

lemma Stamped.sent (h : Stamped w items) (hnew : message.uid ∉ uids w items)
    (hlt : message.uid < w.ledger.accepted.length) : Stamped (w.sent message) items :=
  @Stamped.store w items { message with messageId := nextId w.endpoint.lastMessageId } h hnew hlt
    rfl false

/-- The queue gives the message up, and it is not stored before it is sent. -/
lemma Stamped.polled (h : Stamped w (message :: items)) :
    Stamped (polled w message) items ∧ message.uid ∉ uids (polled w message) items ∧
      message.uid < (TransientSessionWrapper.polled w message).ledger.accepted.length := by
  have hlt := h.known message.uid mem_cons_self
  have hnew : message.uid ∉ uids w items := (nodup_cons.1 h.nodup).1
  have hrest := h.drop (sublist_cons_self message items)
  simp only [TransientSessionWrapper.polled]
  split_ifs
  · refine ⟨hrest.publish (fun hmem => hnew (mem_append_right _ hmem)) false, ?_, ?_⟩
    · simp only [uids]
      rw [publish_inflights]
      exact hnew
    · rw [publish_ledger]
      exact hlt
  · exact ⟨hrest, hnew, hlt⟩

/-- The moments of a list at which the invariant holds, with some queue. -/
def Good (ts : List Take) : Prop := ∀ t ∈ ts, ∃ items, Stamped t.wrapper items

lemma Good.append {ts ts' : List Take} (h : Good ts) (h' : Good ts') : Good (ts ++ ts') := by
  intro t ht
  rcases mem_append.1 ht with ht | ht
  · exact h t ht
  · exact h' t ht

lemma good_nil : Good [] := fun _ ht => absurd ht not_mem_nil

lemma Stamped.good (h : Stamped w items) (message : MqttMessage) : Good [⟨w, message⟩] := by
  intro t ht
  obtain rfl := mem_singleton.1 ht
  exact ⟨items, h⟩

/-- By induction on the queue: every round of `dequeue` keeps the invariant. -/
lemma Stamped.dequeueFrom (h : Stamped w items) :
    (Stamped (w.dequeueFrom items) (w.dequeueFrom items).queue.items) ∧
      Good (dequeueTakesFrom w items) := by
  induction items generalizing w with
  | nil => exact ⟨h.congr rfl rfl rfl, good_nil⟩
  | cons message rest ih =>
      simp only [SessionWrapper.dequeueFrom, dequeueTakesFrom]
      split_ifs with hstop
      · exact ⟨h.congr rfl rfl rfl, good_nil⟩
      · have hpoll : Stamped (w.setQueue rest) (message :: rest) := h.congr rfl rfl rfl
        have hsend := sendPolled_of_connected _ hpoll.connected hpoll.inRange message
        have htakes := @sendPolledTakes_of_connected _ message hpoll.connected
        obtain ⟨hpolled, hnew, hlt⟩ := hpoll.polled
        obtain ⟨hrest, hgood⟩ := ih (hpolled.sent hnew hlt)
        rw [hsend, htakes]
        exact ⟨hrest, (hpolled.good message).append hgood⟩

lemma Stamped.dequeue (h : Stamped w w.queue.items) :
    Stamped w.publishCachedMessage w.publishCachedMessage.queue.items ∧ Good (dequeueTakes w) :=
  h.dequeueFrom

lemma Stamped.enqueue (h : Stamped w (w.queue.items ++ [message])) :
    Stamped (w.enqueue message).2 (w.enqueue message).2.queue.items := by
  simp only [SessionWrapper.enqueue]
  by_cases hroom : (w.addExt message).1 ≥ 0
  · rw [if_pos hroom]
    exact Stamped.congr (h.drop (addExt_sublist w message)) rfl rfl rfl
  · rw [if_neg hroom]
    exact h.drop (sublist_append_left _ _)

lemma Stamped.inflight (h : Stamped w (w.queue.items ++ [message]))
    (hq : message.qos ≠ .atMostOnce) :
    Stamped (w.inflight message).2 (w.inflight message).2.queue.items ∧
      Good (inflightTakes w message) := by
  have hnew : message.uid ∉ uids w w.queue.items := by
    have hperm : uids w (w.queue.items ++ [message]) ~ message.uid :: uids w w.queue.items := by
      simp only [uids]
      rw [map_append, append_assoc]
      exact perm_middle
    exact (nodup_cons.1 (hperm.nodup_iff.1 h.nodup)).1
  have hlt : message.uid < w.ledger.accepted.length :=
    h.known _ (mem_append_left _ (mem_map_of_mem (by simp)))
  have hold : Stamped w w.queue.items := h.drop (sublist_append_left _ _)
  simp only [inflightTakes]
  by_cases hwait : (!w.queue.items.isEmpty || w.isInflightFull) = true
  · have hstop : w.queue.items ≠ [] ∨ w.isInflightFull = true := by simpa using hwait
    rw [if_pos hwait, inflight_of_wait (hstop.imp_right Or.inl)]
    exact ⟨h.enqueue, good_nil⟩
  · have hroom : w.queue.items = [] ∧ w.isInflightFull = false := by
      simpa [List.isEmpty_iff] using hwait
    rw [if_neg hwait, inflight_of_room hroom.1 hroom.2 h.connected h.inRange hq]
    refine ⟨?_, hold.good message⟩
    rw [sent_queue]
    exact hold.sent hnew hlt

lemma Stamped.handleMessage (h : Stamped w (w.queue.items ++ [message])) :
    Stamped (w.handleMessage message).2 (w.handleMessage message).2.queue.items ∧
      Good (handleMessageTakes w message) := by
  simp only [SessionWrapper.handleMessage, handleMessageTakes]
  by_cases hq : message.qos = .atMostOnce
  · rw [if_pos hq, if_pos hq]
    split_ifs
    · exact ⟨h.enqueue, good_nil⟩
    · refine ⟨?_, good_nil⟩
      rw [publish_queue]
      refine (h.drop (sublist_append_left _ _)).publish (fun hmem => ?_) false
      exact (disjoint_of_nodup_append h.nodup) (mem_map_of_mem (by simp)) hmem
  · rw [if_neg hq, if_neg hq]
    exact h.inflight hq

/-- A new message has the next number. -/
lemma Stamped.accept (h : Stamped w w.queue.items) (message : MqttMessage) (qos : MqttQoS) :
    Stamped { w with ledger := w.ledger.accept qos }
      (w.queue.items ++ [w.copyMqttMessage message qos]) := by
  have hperm : uids w (w.queue.items ++ [w.copyMqttMessage message qos]) ~
      w.ledger.accepted.length :: uids w w.queue.items := by
    simp only [uids]
    rw [map_append, append_assoc]
    exact perm_middle
  refine ⟨h.connected, h.inRange, fun uid huid => ?_,
    hperm.nodup_iff.2 (nodup_cons.2 ⟨?_, h.nodup⟩), h.issued⟩
  · show uid < (w.ledger.accepted ++ [qos]).length
    rw [length_append, length_singleton]
    rcases mem_cons.1 (hperm.mem_iff.1 huid) with rfl | hmem
    · omega
    · have := h.known uid hmem
      omega
  · intro hmem
    have := h.known _ hmem
    omega

lemma Stamped.publishMessage (h : Stamped w w.queue.items) (message : MqttMessage) (qos : MqttQoS) :
    Stamped (w.publishMessage message qos) (w.publishMessage message qos).queue.items ∧
      Good (publishMessageTakes w message qos) := by
  obtain ⟨hhandled, hgood⟩ := (h.accept message qos).handleMessage
  unfold SessionWrapper.publishMessage publishMessageTakes
  dsimp only
  split_ifs
  · exact ⟨hhandled.dequeue.1, hgood.append hhandled.dequeue.2⟩
  · exact ⟨hhandled, by rwa [append_nil]⟩

lemma Stamped.receiveFinal (h : Stamped w w.queue.items) (messageId : ℤ) :
    Stamped (w.receiveFinal messageId) (w.receiveFinal messageId).queue.items ∧
      Good (receiveFinalTakes w messageId) :=
  Stamped.dequeue (Stamped.congr (h.removeInflight messageId) rfl rfl rfl)

/-- A stored message is replaced by itself with another status or number of retries. -/
lemma Stamped.putSame (h : Stamped w items) {messageId : ℤ} {message' : MqttMessage}
    (hget : w.inflights.get messageId = some message) (huid : message'.uid = message.uid)
    (hid : message'.messageId = message.messageId) :
    Stamped (w.putInflight messageId message') items := by
  refine h.of_subperm (Perm.append_left _ (PlainMap.map_values_put _ hget huid)).subperm
    ⟨rfl, rfl⟩ rfl rfl fun key other hkey => ?_
  rcases Inflights.get_put hkey with ⟨rfl, rfl⟩ | hold
  · exact ⟨message, hget, huid, hid⟩
  · exact ⟨other, hold, rfl, rfl⟩

lemma Stamped.receivePubrec (h : Stamped w w.queue.items) (messageId : ℤ) :
    Stamped (w.receivePubrec messageId) (w.receivePubrec messageId).queue.items := by
  simp only [SessionWrapper.receivePubrec]
  cases hget : w.inflights.get messageId with
  | none => exact h
  | some message => exact h.putSame hget rfl rfl

lemma Stamped.saveInflightTimeout (h : Stamped w items) (messageId : ℤ) :
    Stamped (w.saveInflightTimeout messageId) items := h.congr rfl rfl rfl

lemma Stamped.publishRelease (h : Stamped w items) (messageId : ℤ) :
    Stamped (w.publishRelease messageId).2 items := by
  have hkept := kept_publishRelease w messageId
  refine h.of_subperm ?_ ⟨hkept.isConnected, publishRelease_lastMessageId _ _⟩ ?_ (by simp)
    fun key message hget => ⟨message, by simpa using hget, rfl, rfl⟩
  · simp only [uids]
    rw [publishRelease_inflights]
  · simp only [SessionWrapper.publishRelease, MqttEndpoint.publishRelease]
    rw [if_pos h.connected]
    exact (Delivery.onWire_append _ _).trans (append_nil _)

/-- A retry sends the release again, or moves the message to its next id and sends it. -/
lemma Stamped.retryInflight (h : Stamped w w.queue.items) {messageId : ℤ}
    (hget : w.inflights.get messageId = some message) :
    Stamped (w.retryInflight message).2 (w.retryInflight message).2.queue.items ∧
      Good (retryInflightTakes w message) := by
  obtain ⟨rfl, -⟩ := h.issued messageId message hget
  rw [retryInflight_queue]
  rw [SessionWrapper.retryInflight, retryInflightTakes]
  dsimp only
  by_cases hrec : message.qos = .exactlyOnce ∧ message.status = MsgConst.PUBREC_STATUS
  · rw [if_pos hrec, if_pos hrec]
    have hput : Stamped (w.putInflight message.messageId
        { message with retry := message.retry + 1 }) w.queue.items := h.putSame hget rfl rfl
    exact ⟨(hput.saveInflightTimeout _).publishRelease _, good_nil⟩
  · obtain ⟨hid, hpos⟩ := nextMessageId_of_connected h.connected h.inRange
    rw [hid] at hpos
    rw [if_neg hrec, if_neg hrec, hid, if_pos hpos]
    -- the message leaves its old place before it is put under the new id
    have hperm : uids w w.queue.items ~
        message.uid :: uids (w.removeInflight message.messageId) w.queue.items :=
      (((PlainMap.values_perm_of_get hget).map MqttMessage.uid).append_left _).trans perm_middle
    have hnew := (nodup_cons.1 (hperm.nodup_iff.1 h.nodup)).1
    have hlt := h.known message.uid (hperm.mem_iff.2 mem_cons_self)
    exact ⟨@Stamped.store _ _ { message with retry := message.retry + 1
                                             messageId := nextId w.endpoint.lastMessageId }
      (h.removeInflight message.messageId) hnew hlt rfl true, h.good message⟩

lemma Stamped.retry (h : Stamped w w.queue.items) (messageId : ℤ) :
    Stamped (w.retry messageId) (w.retry messageId).queue.items ∧
      Good (retryTakes w messageId) := by
  simp only [SessionWrapper.retry, retryTakes]
  cases hget : w.inflights.get messageId with
  | none => exact ⟨h, good_nil⟩
  | some message =>
      dsimp only
      split_ifs
      · exact Stamped.dequeue (Stamped.congr (h.removeInflight messageId) rfl rfl rfl)
      · exact h.retryInflight hget

/-- Every call keeps the invariant, and it holds whenever the call chooses an id. -/
lemma Stamped.step (h : Stamped w w.queue.items) (op : Op) :
    ∃ w', step w op = some w' ∧ Stamped w' w'.queue.items ∧ Good (takes w op) := by
  cases op with
  | publishMessage message qos => exact ⟨_, rfl, h.publishMessage message qos⟩
  | receivePuback messageId => exact ⟨_, rfl, h.receiveFinal messageId⟩
  | receivePubrec messageId => exact ⟨_, rfl, h.receivePubrec messageId, good_nil⟩
  | receivePubcomp messageId => exact ⟨_, rfl, h.receiveFinal messageId⟩
  | retry messageId => exact ⟨_, rfl, h.retry messageId⟩
  | publishCachedMessage => exact ⟨_, rfl, h.dequeue⟩

lemma stamped_new (config : Config) {endpoint : MqttEndpoint} (hc : endpoint.isConnected = true)
    (hr : endpoint.InRange) :
    Stamped (TransientSessionWrapper.new config endpoint) [] := by
  refine ⟨hc, hr, fun uid huid => ?_, nodup_nil, fun key message hget => ?_⟩
  · exact absurd huid not_mem_nil
  · have hnone : (∅ : PlainMap ℤ MqttMessage).get key = some message := hget
    exact absurd hnone (by simp)

/-- The condition on a call: it holds at every moment at which the call chooses an id. -/
def StepOk (w : SessionWrapper .transient) (op : Op) : Prop := ∀ t ∈ takes w op, t.Ok

/-- The ids that a call chooses are new ones. -/
def StepFresh (w : SessionWrapper .transient) (op : Op) : Prop := ∀ t ∈ takes w op, t.Fresh

/-- **The ids are new ones exactly as long as no stored message is met again after a whole
cycle.**  For every configuration, every connected endpoint and every sequence of calls: every id
that a call chooses is that of no other stored message if and only if, whenever an id is chosen,
the next PUBLISH is not a multiple of 65535 PUBLISHes after the last one of another stored
message. -/
theorem fresh_iff (config : Config) (endpoint : MqttEndpoint) (hc : endpoint.isConnected = true)
    (hr : endpoint.InRange) (ops : List Op) :
    AllSteps step StepFresh (TransientSessionWrapper.new config endpoint) ops ↔
      AllSteps step StepOk (TransientSessionWrapper.new config endpoint) ops := by
  refine allSteps_congr (I := fun w => Stamped w w.queue.items) (fun w op w' h hstep => ?_)
    (fun w op h => ?_) (stamped_new config hc hr)
  · obtain ⟨w'', hstep', hw', -⟩ := h.step op
    obtain rfl := Option.some.inj (hstep'.symm.trans hstep)
    exact hw'
  · obtain ⟨-, -, -, hgood⟩ := h.step op
    refine forall₂_congr fun t ht => ?_
    obtain ⟨items, ht'⟩ := hgood t ht
    exact (Take.ok_iff_fresh ht').symm

/-- A message that is sent again under its next id and then acknowledged. -/
def retriedOps : List Op :=
  [.publishMessage sampleMessage .atLeastOnce, .retry 1, .publishMessage sampleMessage .atMostOnce,
    .receivePuback 2]

theorem fresh_iff_retried :
    AllSteps step StepFresh (TransientSessionWrapper.new sampleConfig sampleEndpoint) retriedOps ↔
      AllSteps step StepOk (TransientSessionWrapper.new sampleConfig sampleEndpoint) retriedOps :=
  fresh_iff sampleConfig sampleEndpoint rfl ⟨by decide, by decide⟩ retriedOps

/-- While nothing is queued, a message of QoS 0 is sent and stored nowhere. -/
lemma publishMessage_qos0 (hc : w.endpoint.isConnected = true) (hempty : w.queue.items = []) :
    w.publishMessage sampleMessage .atMostOnce =
      ({ w with ledger := w.ledger.accept .atMostOnce }.publish
        (w.copyMqttMessage sampleMessage .atMostOnce) false).2 := by
  have hsent : ∀ message : MqttMessage, message.qos = .atMostOnce →
      { w with ledger := w.ledger.accept .atMostOnce }.handleMessage message =
        { w with ledger := w.ledger.accept .atMostOnce }.publish message false := by
    intro message hq
    simp only [SessionWrapper.handleMessage]
    rw [if_pos hq, if_neg (by simp [hempty])]
  unfold SessionWrapper.publishMessage
  dsimp only
  rw [hsent _ rfl]
  refine if_neg ?_
  rw [publish_of_connected _ _ _ (by exact hc)]
  show ¬(0 : ℤ) = -1
  decide

/-- Such messages only advance the counter. -/
lemma run_qos0 (n : ℕ) (hc : w.endpoint.isConnected = true) (hempty : w.queue.items = []) :
    ∃ w', run step w (replicate n (.publishMessage sampleMessage .atMostOnce)) = some w' ∧
      w'.queue.items = [] ∧ w'.inflights = w.inflights ∧ w'.config = w.config ∧
      w'.endpoint.isConnected = true ∧
      w'.endpoint.lastMessageId = nextId^[n] w.endpoint.lastMessageId ∧
      w'.ledger.accepted.length = w.ledger.accepted.length + n := by
  induction n generalizing w with
  | zero => exact ⟨w, rfl, hempty, rfl, rfl, hc, rfl, rfl⟩
  | succ n ih =>
      rw [replicate_succ, run_cons]
      show ∃ w', run step (w.publishMessage sampleMessage .atMostOnce) _ = some w' ∧ _
      rw [publishMessage_qos0 hc hempty]
      obtain ⟨hconnected, hlast⟩ := publish_endpoint
        { w with ledger := w.ledger.accept .atMostOnce }
        (w.copyMqttMessage sampleMessage .atMostOnce) false hc
      obtain ⟨w', hrun, hq, hinflights, hconfig, hc', hlast', hacc⟩ := ih hconnected
        (by rw [publish_queue]; exact hempty)
      refine ⟨w', hrun, hq, ?_, ?_, hc', ?_, ?_⟩
      · rw [hinflights, publish_inflights]
      · rw [hconfig, publish_of_connected _ _ _ (by exact hc)]
      · rw [hlast', hlast, Function.iterate_succ_apply]
      · rw [hacc, publish_ledger]
        show (w.ledger.accepted ++ [_]).length + n = _
        rw [length_append, length_singleton]
        omega

/-- With nothing queued and room in the window an id is chosen for a message of QoS 1 or 2. -/
lemma handleMessageTakes_of_room (hq : message.qos ≠ .atMostOnce)
    (hwait : (!w.queue.items.isEmpty || w.isInflightFull) = false) :
    handleMessageTakes w message = [⟨w, message⟩] := by
  simp only [handleMessageTakes, inflightTakes]
  rw [if_neg hq, if_neg (by rw [hwait]; exact Bool.false_ne_true)]

/-- The first message waits for its PUBACK while 65534 messages of QoS 0 are sent: the next message
takes its id and its place. -/
theorem not_fresh :
    ¬∀ (config : Config) (endpoint : MqttEndpoint), endpoint.isConnected = true →
      endpoint.InRange → config.sessionInflightMaxCapacity < 65535 → ∀ ops : List Op,
        AllSteps step StepFresh (TransientSessionWrapper.new config endpoint) ops := by
  intro h
  have hall := h sampleConfig sampleEndpoint rfl ⟨by decide, by decide⟩ (by decide)
    (.publishMessage sampleMessage .atLeastOnce ::
      (replicate 65534 (.publishMessage sampleMessage .atMostOnce) ++
        [.publishMessage sampleMessage .atLeastOnce]))
  set w := (TransientSessionWrapper.new sampleConfig sampleEndpoint).publishMessage sampleMessage
    .atLeastOnce with hw
  obtain ⟨w', hrun, hempty, hinflights, hconfig, hc, hlast, hacc⟩ := @run_qos0 w 65534 rfl rfl
  have hfresh : AllSteps step StepFresh w' [.publishMessage sampleMessage .atLeastOnce] :=
    (hall.2 w rfl).after hrun
  -- the id comes round to that of the message that is still stored
  have hid : IdUtil.nextMessageId w'.endpoint = 1 := by
    have hround : w'.endpoint.lastMessageId = 65535 := by
      rw [hlast, show w.endpoint.lastMessageId = 1 from rfl, nextId_iterate (by decide)]
      decide
    simp only [IdUtil.nextMessageId]
    rw [if_neg (by simp [hc]), hround]
    decide
  have hroom : w'.isInflightFull = false := by
    simp only [SessionWrapper.isInflightFull]
    rw [hconfig, hinflights]
    decide
  have hmem : (⟨{ w' with ledger := w'.ledger.accept .atLeastOnce },
      w'.copyMqttMessage sampleMessage .atLeastOnce⟩ : Take) ∈
        takes w' (.publishMessage sampleMessage .atLeastOnce) := by
    have hwait : (!w'.queue.items.isEmpty || w'.isInflightFull) = false := by
      rw [hempty, hroom]
      rfl
    refine mem_append_left _ ?_
    rw [@handleMessageTakes_of_room { w' with ledger := w'.ledger.accept .atLeastOnce }
      (w'.copyMqttMessage sampleMessage .atLeastOnce) (show MqttQoS.atLeastOnce ≠ _ by decide)
      hwait]
    exact mem_singleton_self _
  obtain ⟨message, hget, huid⟩ : ∃ message, w'.inflights.get 1 = some message ∧ message.uid = 0 :=
    ⟨_, by rw [hinflights]; rfl, rfl⟩
  have heq := (hfresh.1 _ hmem).chosen message (by rw [hid]; exact hget)
  rw [huid] at heq
  have hzero : 0 = w'.ledger.accepted.length := heq
  omega

end TransientSessionWrapper

end Stuart
