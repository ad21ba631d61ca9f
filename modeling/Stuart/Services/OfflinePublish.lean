/-
Publishing to an offline client.

A message for a persistent session without a wrapper goes to the stored queue.  The wrappers decide
about a message of QoS 0 by the QoS that the route asks for; `enqueue` of the queue cache looks at
the QoS of the publisher instead and puts the other one into the stored copy.  Where one of the
two is 0 and the other is not, and QoS 0 is not to be stored, the message is lost that should be
kept, or kept that should not be stored (`stores_iff`).
-/
import Stuart.Services.Lifecycle

namespace Stuart

open Lib

/-- The QoS of a route: that of the message and that of the subscription, downgraded or
upgraded. -/
def matchedQos (upgradeQos : Bool) (qos routerQos : MqttQoS) : MqttQoS :=
  .valueOf (RouterCache.routeQos upgradeQos qos.value routerQos.value)

namespace Broker

/-- A persistent session with this stored queue and without a wrapper. -/
structure Offline (b : Broker) (clientId : Str) (queue : BoundedQueue MqttMessage) : Prop where
  unregistered : b.getWrapper clientId = none
  persistent : b.cacheService.isPersistentSession clientId = true
  opened : b.cacheService.queueCache.get clientId = some queue

/-- `enqueue` stores the message. -/
def Stores (b : Broker) (clientId : Str) (message : MqttMessage) (qos : MqttQoS) : Prop :=
  (b.cacheService.enqueue message clientId qos).1 = true

instance (b : Broker) (clientId : Str) (message : MqttMessage) (qos : MqttQoS) :
    Decidable (b.Stores clientId message qos) := inferInstanceAs (Decidable (_ = true))

/-- The stored queue with the copy of a message that `enqueue` makes. -/
def withStored (queue : BoundedQueue MqttMessage) (clientId : Str) (message : MqttMessage)
    (qos : MqttQoS) : BoundedQueue MqttMessage :=
  (BoundedIgniteQueue.addExt queue { message with clientId := clientId, qos := qos }).2

variable {b : Broker} {clientId : Str} {queue : BoundedQueue MqttMessage}

lemma Offline.validateClientId (h : b.Offline clientId queue) :
    IdUtil.validateClientId clientId = true := by
  by_contra hinvalid
  have hpersistent := h.persistent
  simp only [CacheService.isPersistentSession, CacheService.getSession] at hpersistent
  rw [if_pos (by simpa using hinvalid)] at hpersistent
  contradiction

/-- What decides is the QoS of the message. -/
lemma Offline.stores_iff_qos (h : b.Offline clientId queue) (message : MqttMessage)
    (qos : MqttQoS) : b.Stores clientId message qos ↔
      message.qos ≠ .atMostOnce ∨ b.cacheService.config.sessionQueueStoreQos0 = true := by
  simp only [Stores, CacheService.enqueue]
  rw [if_neg (by simp [h.validateClientId]), h.opened]
  split_ifs with hdrop
  · simp only [Bool.and_eq_true, decide_eq_true_eq, Bool.not_eq_true'] at hdrop
    exact iff_of_false (by simp) (by simp [hdrop])
  · simp only [Bool.and_eq_true, decide_eq_true_eq, Bool.not_eq_true', not_and,
      Bool.not_eq_false] at hdrop
    exact iff_of_true rfl (or_iff_not_imp_left.2 fun hq => hdrop (not_not.1 hq))

/-- The stored queue after `enqueue`. -/
lemma Offline.get_enqueue (h : b.Offline clientId queue) (message : MqttMessage) (qos : MqttQoS) :
    (b.cacheService.enqueue message clientId qos).2.queueCache.get clientId =
      some (if b.Stores clientId message qos then withStored queue clientId message qos
        else queue) := by
  have hstores := h.stores_iff_qos message qos
  simp only [CacheService.enqueue]
  rw [if_neg (by simp [h.validateClientId]), h.opened]
  split_ifs with hdrop hst hst
  · simp only [Bool.and_eq_true, decide_eq_true_eq, Bool.not_eq_true'] at hdrop
    have hnot := hstores.1 hst
    simp [hdrop] at hnot
  · exact h.opened
  · exact PlainMap.get_put_self _ _ _
  · simp only [Bool.and_eq_true, decide_eq_true_eq, Bool.not_eq_true', not_and,
      Bool.not_eq_false] at hdrop
    exact absurd (hstores.2 (or_iff_not_imp_left.2 fun hq => hdrop (not_not.1 hq))) hst

/-- A message for a client without a wrapper goes into the stored queue. -/
lemma handleLocalPublishMessage_of_none (hnone : b.getWrapper clientId = none)
    (message : MqttMessage) (qos : MqttQoS) :
    b.handleLocalPublishMessage clientId message qos =
      if b.cacheService.isPersistentSession clientId then
        b.withCache (b.cacheService.enqueue message clientId qos).2
      else b := by
  have hnone' : (b.withCache (b.cacheService.enqueue message clientId qos).2).getWrapper clientId =
    none := hnone
  simp only [handleLocalPublishMessage, hnone, onRegistered, hnone']

/-- For an offline client the handler does nothing but to enqueue. -/
lemma Offline.handle_eq (h : b.Offline clientId queue) (message : MqttMessage) (qos : MqttQoS) :
    b.handleLocalPublishMessage clientId message qos =
      b.withCache (b.cacheService.enqueue message clientId qos).2 :=
  (handleLocalPublishMessage_of_none h.unregistered message qos).trans (if_pos h.persistent)

/-- A message that is routed to an offline client with the QoS of the route is stored iff that QoS
is not 0 or QoS 0 is to be stored, exactly where QoS 0 is to be stored anyway or the message and
the route agree on whether their QoS is 0. -/
theorem stores_iff (h : b.Offline clientId queue) (message : MqttMessage) (upgradeQos : Bool)
    (routerQos qos : MqttQoS) (hqos : qos = matchedQos upgradeQos message.qos routerQos) :
    (b.handleLocalPublishMessage clientId message qos).cacheService.queueCache.get clientId =
      some (if b.Stores clientId message qos then withStored queue clientId message qos
        else queue) ∧
    ((b.Stores clientId message qos ↔
        qos ≠ .atMostOnce ∨ b.cacheService.config.sessionQueueStoreQos0 = true) ↔
      b.cacheService.config.sessionQueueStoreQos0 = true ∨
        (message.qos = .atMostOnce ↔
          matchedQos upgradeQos message.qos routerQos = .atMostOnce)) := by
  rw [h.handle_eq, ← hqos]
  refine ⟨h.get_enqueue message qos, ?_⟩
  rw [h.stores_iff_qos]
  by_cases hstore : b.cacheService.config.sessionQueueStoreQos0 = true
  · simp [hstore]
  · rw [or_iff_left hstore, or_iff_left hstore, or_iff_right hstore, ne_eq, ne_eq, not_iff_not]

/-- The broker of the samples with a client that was connected and is not any more. -/
def disconnected : Broker := (initial sampleConfig 1).run [.connect ['c'] false, .close 0]

lemma offline_disconnected : disconnected.Offline ['c'] ⟨10, []⟩ :=
  ⟨rfl, by decide, by decide⟩

theorem stores_iff_downgraded :
    (disconnected.handleLocalPublishMessage ['c'] sampleMessage
      .atLeastOnce).cacheService.queueCache.get ['c'] =
        some (if disconnected.Stores ['c'] sampleMessage .atLeastOnce then
          withStored ⟨10, []⟩ ['c'] sampleMessage .atLeastOnce else ⟨10, []⟩) ∧
    ((disconnected.Stores ['c'] sampleMessage .atLeastOnce ↔ MqttQoS.atLeastOnce ≠ .atMostOnce ∨
        disconnected.cacheService.config.sessionQueueStoreQos0 = true) ↔
      disconnected.cacheService.config.sessionQueueStoreQos0 = true ∨
        (sampleMessage.qos = .atMostOnce ↔
          matchedQos false sampleMessage.qos .exactlyOnce = .atMostOnce)) :=
  stores_iff offline_disconnected sampleMessage false .exactlyOnce .atLeastOnce (by decide)

/-- QoS 0 is not to be stored.  A message of QoS 1 for a subscription of QoS 0 is stored, and one of
QoS 0 that is upgraded to QoS 1 is lost. -/
theorem not_stores_iff : disconnected.cacheService.config.sessionQueueStoreQos0 = false ∧
    matchedQos false .atLeastOnce .atMostOnce = .atMostOnce ∧
    disconnected.Stores ['c'] sampleMessage .atMostOnce ∧
    matchedQos true .atMostOnce .atLeastOnce = .atLeastOnce ∧
    ¬disconnected.Stores ['c'] { sampleMessage with qos := .atMostOnce } .atLeastOnce := by
  refine ⟨rfl, by decide, ?_, by decide, ?_⟩
  · rw [offline_disconnected.stores_iff_qos]
    decide
  · rw [offline_disconnected.stores_iff_qos]
    decide

end Broker

end Stuart
