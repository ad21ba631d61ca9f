/-
The fan-out of a publish in a cluster.

A message that a node publishes goes to the nodes of its routes, and each of them hands it to the
sessions that it has.  In orderly runs the cluster looks like one broker, and of that broker it is
known what each client gets (`Broker.Working.reached_foldl`).  A wrapper stays on its node, so the
same holds of the cluster, wherever the message comes from and wherever the clients are connected,
when all requests with the message have been replied to.
-/
import Stuart.Verticles.ClusteredVerticle
import Stuart.Verticles.FanOut

namespace Stuart

open List Lib TopicUtil

namespace RouterCache

variable {s : RouterCache}

end RouterCache

namespace Clustered

namespace State

/-- A persistent session with this stored queue and without a wrapper on any node. -/
structure Offline (s : State) (clientId : Str) (queue : BoundedQueue MqttMessage) : Prop where
  unregistered : ∀ nodeId, (s.wrappers nodeId).get clientId = none
  persistent : s.cacheService.isPersistentSession clientId = true
  opened : s.cacheService.queueCache.get clientId = some queue

/-- Nothing happens to a client. -/
structure Untouched (s s' : State) (clientId : Str) : Prop where
  wrapper : ∀ nodeId, (s'.wrappers nodeId).get clientId = (s.wrappers nodeId).get clientId
  endpoint : ∀ nodeId w, (s.wrappers nodeId).get clientId = some w →
    s'.endpoints[w.endpoint]? = s.endpoints[w.endpoint]?
  queue : s'.cacheService.queueCache.get clientId = s.cacheService.queueCache.get clientId
  inflights :
    s'.cacheService.inflightCache.get clientId = s.cacheService.inflightCache.get clientId
  awaits : s'.cacheService.awaitCache.get clientId = s.cacheService.awaitCache.get clientId

/-- A client gets a message with the given QoS values, as in `Broker.Reached`. -/
structure Reached (s s' : State) (clientId : Str) (message : MqttMessage) (qos : List MqttQoS) :
    Prop where
  connected : ∀ nodeId w, (s.wrappers nodeId).get clientId = some w →
    ∃ w', (s'.wrappers nodeId).get clientId = some w' ∧
      Broker.Takes (s.node nodeId) (s'.node nodeId) w w' message qos
  offline : ∀ queue, s.Offline clientId queue →
    s'.Offline clientId ((s.node 0).storedAfter clientId message queue qos)
  untouched : (qos = [] ∨ (∀ nodeId, (s.wrappers nodeId).get clientId = none) ∧
    s.cacheService.isPersistentSession clientId = false) → Untouched s s' clientId

variable {m nodeId nodeId' : UUID} {s s' : State} {b b' : Broker} {c : Str} {w : Wrapper}

/-! ### The wrapper of the one broker -/

lemma Sound.getWrapper (h : s.Sound m b) (hget : (s.wrappers nodeId).get c = some w) :
    b.getWrapper c = some w := by
  rw [Broker.getWrapper_eq (((h.node_inv nodeId).own c).live w hget).valid]
  exact (h.shows.wrappers c w).2 ⟨nodeId, hget⟩

lemma Shows.getWrapper_eq_none_iff (h : s.Shows m b) :
    b.wrappers.get c = none ↔ ∀ nodeId, (s.wrappers nodeId).get c = none := by
  rw [Option.eq_none_iff_forall_ne_some]
  refine ⟨fun hnone nodeId => ?_, fun hnone w hget => ?_⟩
  · by_contra hsome
    obtain ⟨w, hget⟩ := Option.ne_none_iff_exists'.1 hsome
    exact hnone w ((h.wrappers c w).2 ⟨nodeId, hget⟩)
  · obtain ⟨nodeId, hget⟩ := (h.wrappers c w).1 hget
    rw [hnone nodeId] at hget
    cases hget

/-- A wrapper that keeps its connection stays on its node. -/
lemma Sound.stays (h : s.Sound m b) (h' : s'.Sound m b') (hnodeIds : s'.nodeIds = s.nodeIds)
    (hget : (s.wrappers nodeId).get c = some w) {w' : Wrapper} (hget' : b'.wrappers.get c = some w')
    (hend : w'.endpoint = w.endpoint) : (s'.wrappers nodeId).get c = some w' := by
  obtain ⟨nodeId', hsome⟩ := (h'.shows.wrappers c w').1 hget'
  have hconnection := ((h'.placed.own c).holds nodeId' w' hsome).connection
  rw [hnodeIds, hend, ((h.placed.own c).holds nodeId w hget).connection] at hconnection
  rwa [Option.some.inj hconnection]

lemma Shows.offline_iff (h : s.Shows m b) (queue : BoundedQueue MqttMessage) :
    b.Offline c queue ↔ s.Offline c queue := by
  have hpers : b.cacheService.isPersistentSession c = s.cacheService.isPersistentSession c := by
    rw [h.cacheService, CacheService.isPersistentSession_gather]
  have hqueue : b.cacheService.queueCache.get c = s.cacheService.queueCache.get c := by
    rw [h.cacheService]
    rfl
  refine ⟨fun hoff => ⟨?_, hpers ▸ hoff.persistent, hqueue ▸ hoff.opened⟩,
    fun hoff => ⟨?_, hpers.trans hoff.persistent, hqueue.trans hoff.opened⟩⟩
  · rw [← h.getWrapper_eq_none_iff, ← Broker.getWrapper_eq hoff.validateClientId]
    exact hoff.unregistered
  · simp only [Broker.getWrapper]
    rw [h.getWrapper_eq_none_iff.2 hoff.unregistered, ite_self]

/-! ### What the one broker says about the cluster -/

lemma Sound.untouched (h : s.Sound m b) (h' : s'.Sound m b') (hnodeIds : s'.nodeIds = s.nodeIds)
    (hshare : b'.share c = b.share c) : Untouched s s' c := by
  obtain ⟨-, hdata, hwrapper, hend⟩ := Broker.share_eq_iff.1 hshare
  rw [h.shows.cacheService, h'.shows.cacheService, CacheService.data_gather,
    CacheService.data_gather, ClientData.mk.injEq] at hdata
  obtain ⟨-, -, hawaits, hinflights, hqueue⟩ := hdata
  refine ⟨fun nodeId => ?_, fun nodeId w hget => ?_, hqueue, hinflights, hawaits⟩
  · cases hget : (s.wrappers nodeId).get c with
    | some w =>
        have hb := (h.shows.wrappers c w).2 ⟨nodeId, hget⟩
        exact h.stays h' hnodeIds hget (hwrapper.trans hb) rfl
    | none =>
        by_contra hsome
        obtain ⟨w, hget'⟩ := Option.ne_none_iff_exists'.1 hsome
        have hnew := h'.stays h hnodeIds.symm hget'
          (hwrapper.symm.trans ((h'.shows.wrappers c w).2 ⟨nodeId, hget'⟩)) rfl
        cases hget.symm.trans hnew
  · have hb : b.wrappers.get c = some w := (h.shows.wrappers c w).2 ⟨nodeId, hget⟩
    rw [hwrapper, hb] at hend
    rw [← h.shows.endpoints, ← h'.shows.endpoints]
    exact hend

/-- A node sees the session of a wrapper as the one broker does. -/
lemma Shows.wrapperSession_eq (h : s.Shows m b) (nodeId : UUID) (w : Wrapper) :
    (s.node nodeId).wrapperSession w = b.wrapperSession w := by
  have hend (id : ℕ) : b.endpoint id = (s.node nodeId).endpoint id :=
    congrArg (·[id]?) h.endpoints
  cases w with
  | transient fields queue inflights awaits =>
      simp only [Broker.wrapperSession, hend]
      rw [h.cacheService]
      rfl
  | persistent fields =>
      simp only [Broker.wrapperSession, hend]
      rw [h.cacheService]
      rfl

lemma Shows.takes (h : s.Shows m b) (h' : s'.Shows m b') {w' : Wrapper} {message : MqttMessage}
    {qos : List MqttQoS} (htakes : Broker.Takes b b' w w' message qos) :
    Broker.Takes (s.node nodeId) (s'.node nodeId) w w' message qos := by
  obtain ⟨hend, kind, session, session', hsession, hsession', hgets⟩ := htakes
  exact ⟨hend, kind, session, session', (h.wrapperSession_eq nodeId w).trans hsession,
    (h'.wrapperSession_eq nodeId w').trans hsession', hgets⟩

lemma Sound.reached (h : s.Sound m b) (h' : s'.Sound m b') (hnodeIds : s'.nodeIds = s.nodeIds)
    {message : MqttMessage} {qos : List MqttQoS} (hb : Broker.Reached b b' c message qos) :
    Reached s s' c message qos := by
  have hstored (queue : BoundedQueue MqttMessage) :
      b.storedAfter c message queue qos = (s.node 0).storedAfter c message queue qos := by
    simp only [Broker.storedAfter]
    rw [h.shows.cacheService]
    rfl
  refine ⟨fun nodeId w hget => ?_, fun queue hoff => ?_, fun hnone => ?_⟩
  · obtain ⟨w', hget', htakes⟩ := hb.connected w (h.getWrapper hget)
    rw [Broker.getWrapper_eq (Broker.valid_of_getWrapper hget')] at hget'
    exact ⟨w', h.stays h' hnodeIds hget hget' htakes.endpoint, h.shows.takes h'.shows htakes⟩
  · rw [← hstored, ← h'.shows.offline_iff]
    exact hb.offline queue ((h.shows.offline_iff queue).2 hoff)
  · refine h.untouched h' hnodeIds (hb.untouched (hnone.imp_right fun hunknown => ⟨?_, ?_⟩))
    · simp only [Broker.getWrapper]
      rw [h.shows.getWrapper_eq_none_iff.2 hunknown.1, ite_self]
    · rw [h.shows.cacheService, CacheService.isPersistentSession_gather]
      exact hunknown.2

/-- The routers of a client that match, those with the node itself first. -/
def matching (s : State) (nodeId : UUID) (clientId topic : Str) : List MqttRouter :=
  let routers := s.cacheService.routerCache.matching clientId topic
  (routers.filter fun router => decide (router.nodeId = nodeId)) ++
    routers.filter fun router => !decide (router.nodeId = nodeId)

/-- The QoS values that a client gets a message with: one for each of its routers that match. -/
def deliveries (s : State) (nodeId : UUID) (clientId topic : Str) (qos : MqttQoS) :
    List MqttQoS :=
  (s.matching nodeId clientId topic).map fun router => MqttQoS.valueOf
    (if s.isSessionUpgradeQos then max qos.value router.qos else min qos.value router.qos)

end State

open State

variable {s s' s₀ : State}

end Clustered

end Stuart
