/-
The cache service: what the broker stores, one cache for each kind of data.

The session record and the routers belong to every session; the queue, the inflight messages and
the await messages are stored for persistent sessions only.  All of it is kept by client, so
`data` collects what is stored for one client, and each operation is described by what it does to
the data of its client; the data of the other clients stay as they are.
-/
import Stuart.Caches.RouterClient
import Stuart.Sessions.SessionWrapper

namespace Stuart

open List Lib TopicUtil

structure MqttSession where
  clientId : Str
  cleanSession : Bool
  nodeId : UUID
deriving DecidableEq

structure MqttAwaitMessage where
  clientId : Str
  messageId : ℤ
  topic : Str
  payload : List UInt8
  qos : MqttQoS
  dup : Bool
  retain : Bool
deriving DecidableEq

structure CacheService where
  config : Config
  thisNodeId : UUID
  sessionCache : PlainMap Str MqttSession
  routerCache : RouterCache
  awaitCache : PlainMap Str (BoundedIgniteMap ℤ MqttAwaitMessage)
  inflightCache : PlainMap Str (BoundedIgniteMapUnsafe ℤ MqttMessage)
  queueCache : PlainMap Str (BoundedQueue MqttMessage)

/-- What is stored for one client. -/
structure ClientData where
  session : Option MqttSession
  routers : Str → Option MqttRouter
  awaits : Option (BoundedIgniteMap ℤ MqttAwaitMessage)
  inflights : Option (BoundedIgniteMapUnsafe ℤ MqttMessage)
  queue : Option (BoundedQueue MqttMessage)

namespace CacheService

/-! ### Session records -/

def saveSession (s : CacheService) (session : MqttSession) : CacheService :=
  if !IdUtil.validateClientId session.clientId then s
  else { s with sessionCache := s.sessionCache.put session.clientId session }

def deleteSession (s : CacheService) (clientId : Str) : CacheService :=
  if !IdUtil.validateClientId clientId then s
  else { s with sessionCache := s.sessionCache.remove clientId }

def getSession (s : CacheService) (clientId : Str) : Option MqttSession :=
  if !IdUtil.validateClientId clientId then none else s.sessionCache.get clientId

def isPersistentSession (s : CacheService) (clientId : Str) : Bool :=
  match s.getSession clientId with
  | some session => !session.cleanSession
  | none => false

/-! ### Routers -/

/-- `saveRouter`; the node of the router is this one. -/
def saveRouter (s : CacheService) (clientId topic : Str) (qos : ℤ) : CacheService :=
  { s with routerCache := s.routerCache.save ⟨s.thisNodeId, clientId, topic, qos⟩ }

def updateRouter (s : CacheService) (clientId : Str) : CacheService :=
  { s with routerCache := s.routerCache.update clientId s.thisNodeId }

/-- `deleteRouter(clientId)`. -/
def deleteRouters (s : CacheService) (clientId : Str) : CacheService :=
  { s with routerCache := s.routerCache.deleteClient clientId }

def deleteRouter (s : CacheService) (clientId topic : Str) : CacheService :=
  { s with routerCache := s.routerCache.delete clientId topic }

/-! ### The data of persistent sessions -/

def openAwait (s : CacheService) (clientId : Str) :
    BoundedIgniteMap ℤ MqttAwaitMessage × CacheService :=
  let capacity := s.config.sessionAwaitRelMaxCapacity
  let awaits := match s.awaitCache.get clientId with
    | none => .create capacity
    | some stored => stored.reopen capacity
  (awaits, { s with awaitCache := s.awaitCache.put clientId awaits })

def closeAwait (s : CacheService) (clientId : Str) : CacheService :=
  { s with awaitCache := s.awaitCache.remove clientId }

def openInflight (s : CacheService) (clientId : Str) :
    BoundedIgniteMapUnsafe ℤ MqttMessage × CacheService :=
  let capacity := s.config.sessionInflightMaxCapacity
  let inflights := match s.inflightCache.get clientId with
    | none => .create capacity
    | some stored => stored.reopen capacity
  (inflights, { s with inflightCache := s.inflightCache.put clientId inflights })

def closeInflight (s : CacheService) (clientId : Str) : CacheService :=
  { s with inflightCache := s.inflightCache.remove clientId }

/-- The elements of the stored queue of a client. -/
def queued (s : CacheService) (clientId : Str) : List MqttMessage :=
  match s.queueCache.get clientId with
  | none => []
  | some queue => queue.items

def openQueue (s : CacheService) (clientId : Str) : BoundedQueue MqttMessage × CacheService :=
  let queue := Stuart.openQueue s.config.sessionQueueMaxCapacity (s.queued clientId)
  (queue, { s with queueCache := s.queueCache.put clientId queue })

def closeQueue (s : CacheService) (clientId : Str) : CacheService :=
  { s with queueCache := s.queueCache.remove clientId }

/-- `enqueue`, of the queue cache: the offer goes to the stored queue, in a loop like that of
`offerExt`. -/
def enqueue (s : CacheService) (message : MqttMessage) (clientId : Str) (qos : MqttQoS) :
    Bool × CacheService :=
  if !IdUtil.validateClientId clientId then (false, s)
  -- the QoS of the message, not the one the subscription asks for
  else if message.qos = .atMostOnce && !s.config.sessionQueueStoreQos0 then (false, s)
  else
    match s.queueCache.get clientId with
    | none => (false, s)
    | some queue =>
        let mqttMessage := { message with clientId := clientId, qos := qos }
        (true, { s with queueCache :=
          s.queueCache.put clientId (BoundedIgniteQueue.addExt queue mqttMessage).2 })

/-- The stored queue and inflight messages of a session after a method of its wrapper. -/
def storeSession (s : CacheService) (clientId : Str) (queue : BoundedQueue MqttMessage)
    (inflights : BoundedIgniteMapUnsafe ℤ MqttMessage) : CacheService :=
  { s with
    queueCache := s.queueCache.put clientId queue
    inflightCache := s.inflightCache.put clientId inflights }

/-! ### Sessions -/

def destroyTransientSession (s : CacheService) (clientId : Str) : CacheService :=
  s.deleteRouters clientId

def initPersistentSession (s : CacheService) (clientId : Str) : CacheService :=
  s.updateRouter clientId

def destroyPersistentSession (s : CacheService) (clientId : Str) : CacheService :=
  (((s.deleteRouters clientId).closeAwait clientId).closeQueue clientId).closeInflight clientId

/-! ### The data of a client -/

def data (s : CacheService) (clientId : Str) : ClientData where
  session := s.sessionCache.get clientId
  routers := s.routerCache.routerOf clientId
  awaits := s.awaitCache.get clientId
  inflights := s.inflightCache.get clientId
  queue := s.queueCache.get clientId

variable {s : CacheService} {clientId : Str}

lemma getSession_eq (hv : IdUtil.validateClientId clientId = true) :
    s.getSession clientId = (s.data clientId).session := if_neg (by simp [hv])

lemma isPersistentSession_iff (hv : IdUtil.validateClientId clientId = true) :
    s.isPersistentSession clientId = true ↔
      ∃ session, (s.data clientId).session = some session ∧ session.cleanSession = false := by
  simp only [isPersistentSession]
  rw [getSession_eq hv]
  cases (s.data clientId).session <;> simp

lemma data_saveSession (session : MqttSession)
    (hv : IdUtil.validateClientId session.clientId = true) (clientId' : Str) :
    (s.saveSession session).data clientId' =
      if clientId' = session.clientId then { s.data clientId' with session := some session }
      else s.data clientId' := by
  simp only [saveSession]
  rw [if_neg (by simp [hv])]
  simp only [data, PlainMap.get_put]
  split_ifs <;> rfl

lemma data_deleteSession (hv : IdUtil.validateClientId clientId = true) (clientId' : Str) :
    (s.deleteSession clientId).data clientId' =
      if clientId' = clientId then { s.data clientId' with session := none }
      else s.data clientId' := by
  simp only [deleteSession]
  rw [if_neg (by simp [hv])]
  simp only [data, PlainMap.get_remove]
  split_ifs <;> rfl

lemma data_destroyTransientSession (hr : s.routerCache.Consistent)
    (hv : IdUtil.validateClientId clientId = true) (clientId' : Str) :
    (s.destroyTransientSession clientId).data clientId' =
      if clientId' = clientId then { s.data clientId' with routers := fun _ => none }
      else s.data clientId' := by
  have hrouters : ((s.routerCache.deleteClient clientId).routerOf clientId') =
      if clientId' = clientId then fun _ => none else s.routerCache.routerOf clientId' := by
    funext topic
    rw [hr.routerOf_deleteClient hv]
    split_ifs <;> rfl
  simp only [destroyTransientSession, deleteRouters, data, hrouters]
  split_ifs <;> rfl

lemma data_destroyPersistentSession (hr : s.routerCache.Consistent)
    (hv : IdUtil.validateClientId clientId = true) (clientId' : Str) :
    (s.destroyPersistentSession clientId).data clientId' =
      if clientId' = clientId then
        { session := (s.data clientId').session, routers := fun _ => none, awaits := none,
          inflights := none, queue := none }
      else s.data clientId' := by
  have htrans := data_destroyTransientSession hr hv clientId'
  by_cases heq : clientId' = clientId
  · rw [if_pos heq] at htrans ⊢
    simp only [destroyTransientSession, data, ClientData.mk.injEq] at htrans
    simp only [destroyPersistentSession, closeAwait, closeQueue, closeInflight, data, heq,
      PlainMap.get_remove_self]
    rw [heq] at htrans
    rw [htrans.1, htrans.2.1]
  · rw [if_neg heq] at htrans ⊢
    rw [← htrans]
    simp only [destroyPersistentSession, destroyTransientSession, closeAwait, closeQueue,
      closeInflight, data, PlainMap.get_remove_of_ne _ heq]

lemma data_initPersistentSession (hr : s.routerCache.Consistent) (clientId' : Str) :
    (s.initPersistentSession clientId).data clientId' =
      if clientId' = clientId then
        { s.data clientId' with routers := fun topic =>
            ((s.data clientId').routers topic).map fun router =>
              { router with nodeId := s.thisNodeId } }
      else s.data clientId' := by
  have hrouters : ((s.routerCache.update clientId s.thisNodeId).routerOf clientId') =
      if clientId' = clientId then fun topic => (s.routerCache.routerOf clientId' topic).map
        fun router => { router with nodeId := s.thisNodeId }
      else s.routerCache.routerOf clientId' := by
    funext topic
    rw [hr.routerOf_update]
    split_ifs <;> rfl
  simp only [initPersistentSession, updateRouter, data, hrouters]
  split_ifs <;> rfl

lemma data_openAwait (clientId' : Str) :
    (s.openAwait clientId).2.data clientId' =
      if clientId' = clientId then { s.data clientId' with awaits := some (s.openAwait clientId).1 }
      else s.data clientId' := by
  simp only [openAwait, data, PlainMap.get_put]
  split_ifs <;> rfl

lemma data_openInflight (clientId' : Str) :
    (s.openInflight clientId).2.data clientId' =
      if clientId' = clientId then
        { s.data clientId' with inflights := some (s.openInflight clientId).1 }
      else s.data clientId' := by
  simp only [openInflight, data, PlainMap.get_put]
  split_ifs <;> rfl

lemma data_openQueue (clientId' : Str) :
    (s.openQueue clientId).2.data clientId' =
      if clientId' = clientId then { s.data clientId' with queue := some (s.openQueue clientId).1 }
      else s.data clientId' := by
  simp only [openQueue, data, PlainMap.get_put]
  split_ifs <;> rfl

lemma data_storeSession (queue : BoundedQueue MqttMessage)
    (inflights : BoundedIgniteMapUnsafe ℤ MqttMessage) (clientId' : Str) :
    (s.storeSession clientId queue inflights).data clientId' =
      if clientId' = clientId then
        { s.data clientId' with queue := some queue, inflights := some inflights }
      else s.data clientId' := by
  simp only [storeSession, data, PlainMap.get_put]
  split_ifs <;> rfl

/-- An enqueue changes at most the items of the stored queue of its client. -/
lemma data_enqueue (message : MqttMessage) (qos : MqttQoS) (clientId' : Str) :
    (s.enqueue message clientId qos).2.data clientId' = s.data clientId' ∨
      clientId' = clientId ∧ ∃ queue, (s.data clientId).queue = some queue ∧
        (s.enqueue message clientId qos).2.data clientId' =
          { s.data clientId with queue := some (BoundedIgniteQueue.addExt queue
              { message with clientId := clientId, qos := qos }).2 } := by
  simp only [enqueue]
  split_ifs
  · exact Or.inl rfl
  · exact Or.inl rfl
  · cases hget : s.queueCache.get clientId with
    | none => exact Or.inl rfl
    | some queue =>
        by_cases heq : clientId' = clientId
        · subst heq
          refine Or.inr ⟨rfl, queue, hget, ?_⟩
          simp only [data, PlainMap.get_put_self]
        · refine Or.inl ?_
          simp only [data, PlainMap.get_put_of_ne _ heq]

lemma data_saveRouter (hr : s.routerCache.Consistent) (topic : Str) (qos : ℤ)
    (clientId' : Str) :
    (s.saveRouter clientId topic qos).data clientId' =
      if clientId' = clientId ∧ IdUtil.validateClientId clientId = true ∧
          validateTopic topic = true then
        { s.data clientId' with routers := fun topic' =>
            if topic' = topic then some ⟨s.thisNodeId, clientId, topic, qos⟩
            else (s.data clientId').routers topic' }
      else s.data clientId' := by
  by_cases hv : IdUtil.validateClientId clientId = true ∧ validateTopic topic = true
  · have hsave := hr.routerOf_save ⟨s.thisNodeId, clientId, topic, qos⟩ hv.1 hv.2
    by_cases heq : clientId' = clientId
    · rw [if_pos ⟨heq, hv⟩]
      simp only [saveRouter, data, ClientData.mk.injEq, true_and, and_true]
      funext topic'
      rw [hsave clientId' topic']
      simp [heq]
    · rw [if_neg fun h => heq h.1]
      simp only [saveRouter, data, ClientData.mk.injEq, true_and, and_true]
      funext topic'
      rw [hsave clientId' topic', if_neg fun h => heq h.1]
  · rw [if_neg fun h => hv h.2]
    simp only [saveRouter]
    rw [RouterCache.save_of_not_valid]
    simpa only [Bool.or_eq_true, Bool.not_eq_true', not_and_or, Bool.not_eq_true] using hv

lemma data_deleteRouter (hr : s.routerCache.Consistent) (topic : Str) (clientId' : Str) :
    (s.deleteRouter clientId topic).data clientId' =
      if clientId' = clientId then
        { s.data clientId' with routers := fun topic' =>
            if topic' = topic then none else (s.data clientId').routers topic' }
      else s.data clientId' := by
  have hrouters : (s.routerCache.delete clientId topic).routerOf clientId' =
      if clientId' = clientId then
        fun topic' => if topic' = topic then none else s.routerCache.routerOf clientId' topic'
      else s.routerCache.routerOf clientId' := by
    funext topic'
    rw [hr.routerOf_delete]
    by_cases heq : clientId' = clientId <;> simp [heq]
  simp only [deleteRouter, data, hrouters]
  split_ifs <;> rfl

end CacheService

end Stuart
