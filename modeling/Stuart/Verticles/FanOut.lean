/-
The fan-out of a publish.

`getRoutes` returns one route for each router that matches the topic, and the verticle hands the
message to the sessions of these routes one after the other.  A session reads and changes its own
share of the broker only: its stored data, its wrapper and the endpoint of the wrapper.  So each
client gets what the routes to it alone would give it, whatever other clients get in between, and
in whatever order the query returns the routes of different clients.
-/
import Stuart.Lib.Parts
import Stuart.Caches.Routing
import Stuart.Verticles.Restart
import Stuart.Services.OfflinePublish
import Stuart.Verticles.MqttVerticle

namespace Stuart

open List Lib TopicUtil

/-- What belongs to one client, and the configuration. -/
structure Share where
  config : Config
  data : ClientData
  wrapper : Option Wrapper
  endpoint : Option MqttEndpoint

namespace Broker

variable {b b' : Broker} {clientId c : Str}

def share (b : Broker) (clientId : Str) : Share where
  config := b.cacheService.config
  data := b.cacheService.data clientId
  wrapper := b.wrappers.get clientId
  endpoint := (b.wrappers.get clientId).bind fun w => b.endpoint w.endpoint

lemma share_eq_iff : b.share c = b'.share c ↔ b.cacheService.config = b'.cacheService.config ∧
    b.cacheService.data c = b'.cacheService.data c ∧ b.wrappers.get c = b'.wrappers.get c ∧
    ((b.wrappers.get c).bind fun w => b.endpoint w.endpoint) =
      (b'.wrappers.get c).bind fun w => b'.endpoint w.endpoint := by
  rw [share, share, Share.mk.injEq]

lemma getWrapper_congr (h : b.share c = b'.share c) : b.getWrapper c = b'.getWrapper c := by
  obtain ⟨-, -, hw, -⟩ := share_eq_iff.1 h
  simp only [getWrapper, hw]

lemma isPersistentSession_congr (h : b.share c = b'.share c) :
    b.cacheService.isPersistentSession c = b'.cacheService.isPersistentSession c := by
  obtain ⟨-, hdata, -, -⟩ := share_eq_iff.1 h
  have hget : b.cacheService.sessionCache.get c = b'.cacheService.sessionCache.get c :=
    congrArg ClientData.session hdata
  simp only [CacheService.isPersistentSession, CacheService.getSession, hget]

/-- The endpoint of a registered wrapper. -/
lemma endpoint_congr (h : b.share c = b'.share c) {w : Wrapper}
    (hw : b.wrappers.get c = some w) : b.endpoint w.endpoint = b'.endpoint w.endpoint := by
  obtain ⟨-, -, hsame, hend⟩ := share_eq_iff.1 h
  rw [← hsame, hw] at hend
  exact hend

lemma Inv.wrapperSession_congr (h : b.Inv) (hshare : b.share c = b'.share c) {w : Wrapper}
    (hget : b.getWrapper c = some w) : b'.wrapperSession w = b.wrapperSession w := by
  have hend := endpoint_congr hshare
    ((getWrapper_eq (valid_of_getWrapper hget)).symm.trans hget)
  have hclient := (h.live_of_getWrapper hget).client
  obtain ⟨hconfig, hdata, -, -⟩ := share_eq_iff.1 hshare
  have hqueue : b.cacheService.queueCache.get c = b'.cacheService.queueCache.get c :=
    congrArg ClientData.queue hdata
  have hinflights : b.cacheService.inflightCache.get c = b'.cacheService.inflightCache.get c :=
    congrArg ClientData.inflights hdata
  cases w with
  | transient fields queue inflights awaits =>
      have hend : b.endpoint fields.endpoint = b'.endpoint fields.endpoint := hend
      simp only [wrapperSession, hend, hconfig]
  | persistent fields =>
      have hend : b.endpoint fields.endpoint = b'.endpoint fields.endpoint := hend
      obtain rfl : fields.thisClientId = c := hclient
      simp only [wrapperSession, hend, hconfig, hqueue, hinflights]

/-! ### What a session reads -/

section OnRegistered

variable {f : ∀ {kind}, SessionWrapper kind → SessionWrapper kind}

/-- The share of a client after a method of its wrapper. -/
lemma share_putWrapper (hv : IdUtil.validateClientId c = true) {id : ℕ}
    {endpoint old : MqttEndpoint} (hold : b.endpoint id = some old) {w : Wrapper}
    (hw : w.endpoint = id) {s : CacheService} :
    (((b.setEndpoint id endpoint).withCache s).putWrapper c w).share c =
      ⟨s.config, s.data c, some w, some endpoint⟩ := by
  subst hw
  rw [putWrapper_eq hv]
  simp only [share, PlainMap.get_put_self, Option.bind_some, Share.mk.injEq, true_and]
  exact ⟨rfl, rfl, (endpoint_setEndpoint hold _).trans (if_pos rfl)⟩

lemma Inv.share_onRegistered (h : b.Inv) (h' : b'.Inv) (hshare : b.share c = b'.share c) :
    (b.onRegistered c f).share c = (b'.onRegistered c f).share c := by
  have hget' := getWrapper_congr hshare
  obtain ⟨hconfig, hdata, -, -⟩ := share_eq_iff.1 hshare
  cases hget : b.getWrapper c with
  | none =>
      rw [hget] at hget'
      simp only [Broker.onRegistered, hget, ← hget']
      exact hshare
  | some w =>
      have hv := valid_of_getWrapper hget
      have hw := (getWrapper_eq hv).symm.trans hget
      have hend := endpoint_congr hshare hw
      rw [hget] at hget'
      cases w with
      | transient fields queue inflights awaits =>
          obtain ⟨endpoint, he, hon⟩ := h.onRegistered_of_transient (f := f) hget
          obtain ⟨endpoint', he', hon'⟩ := h'.onRegistered_of_transient (f := f) hget'.symm
          obtain rfl : endpoint = endpoint' :=
            Option.some.inj
              (he.symm.trans ((show b.endpoint fields.endpoint = _ from hend).trans he'))
          rw [hon, hon', ← hconfig]
          refine (share_putWrapper (s := b.cacheService) hv he rfl).trans ?_
          refine Eq.trans ?_ (share_putWrapper (s := b'.cacheService) hv he' rfl).symm
          rw [hconfig, hdata]
      | persistent fields =>
          obtain ⟨endpoint, queue, inflights, he, hq, hi, -, hon⟩ :=
            h.onRegistered_of_persistent (f := f) hget
          obtain ⟨endpoint', queue', inflights', he', hq', hi', -, hon'⟩ :=
            h'.onRegistered_of_persistent (f := f) hget'.symm
          obtain rfl : endpoint = endpoint' :=
            Option.some.inj
              (he.symm.trans ((show b.endpoint fields.endpoint = _ from hend).trans he'))
          rw [← hdata] at hq' hi'
          obtain rfl : queue = queue' := Option.some.inj (hq.symm.trans hq')
          obtain rfl : inflights = inflights' := Option.some.inj (hi.symm.trans hi')
          rw [hon, hon', ← hconfig]
          refine (share_putWrapper hv he rfl).trans (Eq.trans ?_ (share_putWrapper hv he' rfl).symm)
          refine (Share.mk.injEq ..).mpr ⟨hconfig, ?_, rfl, rfl⟩
          refine (data_storeSession_self _ _).trans (Eq.trans ?_ (data_storeSession_self _ _).symm)
          rw [hdata]

end OnRegistered

/-- What `enqueue` leaves of a client depends on its data and the configuration. -/
lemma share_enqueue (hshare : b.share c = b'.share c) (message : MqttMessage) (qos : MqttQoS) :
    (b.withCache (b.cacheService.enqueue message c qos).2).share c =
      (b'.withCache (b'.cacheService.enqueue message c qos).2).share c := by
  obtain ⟨hconfig, hdata, hw, hend⟩ := share_eq_iff.1 hshare
  have hqueue : b.cacheService.queueCache.get c = b'.cacheService.queueCache.get c :=
    congrArg ClientData.queue hdata
  simp only [CacheService.enqueue, hconfig, hqueue]
  split_ifs
  · exact hshare
  · exact hshare
  · cases b'.cacheService.queueCache.get c with
    | none => exact hshare
    | some queue =>
        refine share_eq_iff.2 ⟨rfl, ?_, hw, hend⟩
        simp only [CacheService.data, ClientData.mk.injEq] at hdata
        simp only [withCache, CacheService.data, PlainMap.get_put_self, hdata]

lemma Inv.share_handleLocalPublishMessage (h : b.Inv) (h' : b'.Inv)
    (hshare : b.share c = b'.share c) (message : MqttMessage) (qos : MqttQoS) :
    (b.handleLocalPublishMessage c message qos).share c =
      (b'.handleLocalPublishMessage c message qos).share c := by
  have hget' := getWrapper_congr hshare
  have hpers' := isPersistentSession_congr hshare
  simp only [Broker.handleLocalPublishMessage]
  cases hget : b.getWrapper c with
  | some w =>
      rw [hget] at hget'
      rw [← hget']
      exact h.share_onRegistered h' hshare
  | none =>
      rw [hget] at hget'
      rw [← hget', ← hpers']
      dsimp only
      split_ifs with hpers
      · exact (h.enqueue hget hpers message qos).share_onRegistered
          (h'.enqueue hget'.symm (hpers' ▸ hpers) message qos) (share_enqueue hshare message qos)
      · exact hshare

/-- What belongs to another client stays. -/
lemma Inv.share_of_ne (h : b.Inv) (message : MqttMessage) (qos : MqttQoS) (hne : c ≠ clientId) :
    (b.handleLocalPublishMessage clientId message qos).share c = b.share c := by
  have hsame := h.sameElse_handleLocalPublishMessage clientId message qos
  refine share_eq_iff.2 ⟨hsame.cache.config, hsame.cache.data c hne, hsame.wrappers c hne, ?_⟩
  rw [hsame.wrappers c hne]
  cases hw : b.wrappers.get c with
  | none => rfl
  | some w =>
      have howner := ((h.own c).live w hw).owner
      simp only [Option.bind_some, Broker.handleLocalPublishMessage]
      cases hget : b.getWrapper clientId with
      | some w' => exact h.endpoint_onRegistered howner hne
      | none =>
          dsimp only
          split_ifs with hpers
          · exact (h.enqueue hget hpers message qos).endpoint_onRegistered howner hne
          · rfl

/-! ### What one delivery does -/

/-- The message is handed to the session of a route. -/
def deliver (message : MqttMessage) (b : Broker) (route : MqttRoute) : Broker :=
  b.handleLocalPublishMessage route.clientId message (MqttQoS.valueOf route.qos)

lemma parts_deliver (message : MqttMessage) :
    Parts Inv (deliver message) MqttRoute.clientId share where
  inv := fun _ _ h => h.handleLocalPublishMessage _ message _
  frame := fun _ _ _ h hne => h.share_of_ne message _ hne.symm
  reads := fun _ _ _ h h' heq => h.share_handleLocalPublishMessage h' heq message _

/-- The session of a registered wrapper gets copies of a message with the given QoS values, one after
the other, and the wrapper keeps its connection. -/
structure Takes (b b' : Broker) (w w' : Wrapper) (message : MqttMessage) (qos : List MqttQoS) :
    Prop where
  endpoint : w'.endpoint = w.endpoint
  gets : ∃ (kind : SessionKind) (s s' : SessionWrapper kind), b.wrapperSession w = some ⟨kind, s⟩ ∧
    b'.wrapperSession w' = some ⟨kind, s'⟩ ∧ SessionWrapper.GetsAll message s s' qos

lemma Inv.endpoint_publish (h : b.Inv) {w w' : Wrapper} (hget : b.getWrapper c = some w)
    {message : MqttMessage} {qos : MqttQoS}
    (hget' : (b.handleLocalPublishMessage c message qos).getWrapper c = some w') :
    w'.endpoint = w.endpoint := by
  have hv := valid_of_getWrapper hget
  simp only [Broker.handleLocalPublishMessage, hget] at hget'
  cases w with
  | transient fields queue inflights awaits =>
      obtain ⟨endpoint, -, hon⟩ := h.onRegistered_of_transient
        (f := fun w => w.publishMessage message qos) hget
      rw [hon, putWrapper_eq hv, getWrapper_eq hv] at hget'
      obtain rfl := Option.some.inj ((PlainMap.get_put_self _ _ _).symm.trans hget')
      rfl
  | persistent fields =>
      obtain ⟨endpoint, queue, inflights, -, -, -, -, hon⟩ := h.onRegistered_of_persistent
        (f := fun w => w.publishMessage message qos) hget
      rw [hon, putWrapper_eq hv, getWrapper_eq hv] at hget'
      obtain rfl := Option.some.inj ((PlainMap.get_put_self _ _ _).symm.trans hget')
      rfl

/-! ### The routes to one client -/

lemma Working.foldl_deliver (h : b.Working) (message : MqttMessage) (routes : List MqttRoute) :
    (routes.foldl (deliver message) b).Working := by
  induction routes generalizing b with
  | nil => exact h
  | cons route routes ih => exact ih (h.handleLocalPublishMessage _ message _)

/-- The registered wrapper takes a message for each route to its client. -/
lemma Working.takes_foldl (h : b.Working) {w : Wrapper} (hget : b.getWrapper c = some w)
    (message : MqttMessage) {routes : List MqttRoute} (hc : ∀ route ∈ routes, route.clientId = c) :
    ∃ w', (routes.foldl (deliver message) b).getWrapper c = some w' ∧
      Takes b (routes.foldl (deliver message) b) w w' message
        (routes.map fun route => MqttQoS.valueOf route.qos) := by
  obtain ⟨kind, s, hs, -, -⟩ := h.exists_session hget
  have hw : b.wrapperSession w = some ⟨kind, s⟩ := by
    simpa only [session, hget, Option.bind_some] using hs
  induction routes generalizing b w s with
  | nil => exact ⟨w, hget, rfl, kind, s, s, hw, hw, .nil s⟩
  | cons route routes ih =>
      obtain rfl := hc route mem_cons_self
      obtain ⟨s₁, hs₁, hgets⟩ := h.gets_handleLocalPublishMessage hs message
        (MqttQoS.valueOf route.qos)
      obtain ⟨w₁, hget₁, hw₁⟩ := Option.bind_eq_some_iff.1 hs₁
      obtain ⟨w₂, hget₂, hend, kind', s₁', s₂, hs₁', hs₂, hall⟩ :=
        ih (h.handleLocalPublishMessage _ message _) hget₁
          (fun route' hmem => hc route' (mem_cons_of_mem _ hmem)) s₁ hs₁ hw₁
      cases hw₁.symm.trans hs₁'
      exact ⟨w₂, hget₂, hend.trans (h.inv.endpoint_publish hget hget₁), kind, s, s₂, hw, hs₂,
        .cons hgets hall⟩

/-- The stored queue after messages of the given QoS. -/
def storedAfter (b : Broker) (clientId : Str) (message : MqttMessage)
    (queue : BoundedQueue MqttMessage) (qos : List MqttQoS) : BoundedQueue MqttMessage :=
  if message.qos ≠ .atMostOnce ∨ b.cacheService.config.sessionQueueStoreQos0 = true then
    qos.foldl (fun queue qos => withStored queue clientId message qos) queue
  else queue

lemma Offline.publish {queue : BoundedQueue MqttMessage} (h : b.Offline c queue)
    (message : MqttMessage) (qos : MqttQoS) :
    (b.handleLocalPublishMessage c message qos).Offline c
      (b.storedAfter c message queue [qos]) := by
  have hstored := h.get_enqueue message qos
  simp only [h.stores_iff_qos] at hstored
  rw [h.handle_eq]
  refine ⟨h.unregistered, ?_, hstored⟩
  have hpers := h.persistent
  rw [CacheService.isPersistentSession_iff h.validateClientId] at hpers ⊢
  obtain ⟨session, hsession, hclean⟩ := hpers
  refine ⟨session, ?_, hclean⟩
  rw [← hsession]
  rcases @CacheService.data_enqueue b.cacheService c message qos c with
    hdata | ⟨-, queue', -, hdata⟩
  · exact (congrArg ClientData.session hdata :)
  · exact (congrArg ClientData.session hdata :)

lemma Offline.foldl {queue : BoundedQueue MqttMessage} (hoff : b.Offline c queue)
    (message : MqttMessage) {routes : List MqttRoute} (hc : ∀ route ∈ routes, route.clientId = c)
    (hb : b.Inv) :
    (routes.foldl (deliver message) b).Offline c
      (b.storedAfter c message queue (routes.map fun route => MqttQoS.valueOf route.qos)) := by
  induction routes generalizing b queue with
  | nil =>
      simp only [storedAfter, map_nil, foldl_nil, ite_self]
      exact hoff
  | cons route routes ih =>
      obtain rfl := hc route mem_cons_self
      have hnext := ih (hoff.publish message (MqttQoS.valueOf route.qos))
        (fun route' hmem => hc route' (mem_cons_of_mem _ hmem))
        (hb.handleLocalPublishMessage _ message _)
      have hconfig := (hb.sameElse_handleLocalPublishMessage route.clientId message
        (MqttQoS.valueOf route.qos)).cache.config
      simp only [storedAfter, hconfig] at hnext ⊢
      rw [map_cons, foldl_cons]
      split_ifs at hnext ⊢
      · exact hnext
      · exact hnext

/-- A client that is neither connected nor known is not reached. -/
lemma foldl_deliver_of_unknown (hget : b.getWrapper c = none)
    (hpers : b.cacheService.isPersistentSession c = false) (message : MqttMessage)
    {routes : List MqttRoute} (hc : ∀ route ∈ routes, route.clientId = c) :
    routes.foldl (deliver message) b = b := by
  induction routes with
  | nil => rfl
  | cons route routes ih =>
      obtain rfl := hc route mem_cons_self
      have hstep : deliver message b route = b := by
        simp only [deliver, Broker.handleLocalPublishMessage]
        rw [hget]
        exact if_neg (by simp [hpers])
      rw [foldl_cons, hstep]
      exact ih fun route' hmem => hc route' (mem_cons_of_mem _ hmem)

end Broker

namespace RouterCache

/-- The QoS values that a client gets a message with: one for each of its routers that match. -/
def deliveries (s : RouterCache) (upgradeQos : Bool) (clientId topic : Str) (qos : MqttQoS) :
    List MqttQoS :=
  (s.matching clientId topic).map fun router =>
    MqttQoS.valueOf (if upgradeQos then max qos.value router.qos else min qos.value router.qos)

end RouterCache

namespace Broker

variable {b b' : Broker} {c : Str}

/-- A client gets a message with the given QoS values: a connected one by its wrapper, an offline
persistent one by its stored queue.  What belongs to a client that gets nothing stays. -/
structure Reached (b b' : Broker) (clientId : Str) (message : MqttMessage) (qos : List MqttQoS) :
    Prop where
  connected : ∀ w, b.getWrapper clientId = some w →
    ∃ w', b'.getWrapper clientId = some w' ∧ Takes b b' w w' message qos
  offline : ∀ queue, b.Offline clientId queue →
    b'.Offline clientId (b.storedAfter clientId message queue qos)
  untouched : (qos = [] ∨ b.getWrapper clientId = none ∧
    b.cacheService.isPersistentSession clientId = false) → b'.share clientId = b.share clientId

/-- Routes that are followed one after the other. -/
lemma Working.reached_foldl (hworking : b.Working) (message : MqttMessage)
    (routes : List MqttRoute) (c : Str) :
    Reached b (routes.foldl (deliver message) b) c message
      ((routes.filter fun route => route.clientId = c).map fun route =>
        MqttQoS.valueOf route.qos) := by
  have h := hworking.inv
  set own := routes.filter fun route => route.clientId = c
  have hc : ∀ route ∈ own, route.clientId = c := fun route hmem =>
    of_decide_eq_true (mem_filter.1 hmem).2
  -- what the client gets is what its own routes give it
  have hshare : (routes.foldl (deliver message) b).share c =
      (own.foldl (deliver message) b).share c := (parts_deliver message).view_foldl h routes c
  refine ⟨fun w hget => ?_, fun queue hoff => ?_, ?_⟩
  · obtain ⟨w', hget', hend, kind, s, s', hs, hs', hall⟩ := hworking.takes_foldl hget message hc
    have hown := (hworking.foldl_deliver message own).inv
    exact ⟨w', (getWrapper_congr hshare).trans hget', hend, kind, s, s', hs,
      (hown.wrapperSession_congr hshare.symm hget').trans hs', hall⟩
  · have hoff' := hoff.foldl message hc h
    obtain ⟨-, hdata, -, -⟩ := share_eq_iff.1 hshare
    exact ⟨(getWrapper_congr hshare).trans hoff'.unregistered,
      (isPersistentSession_congr hshare).trans hoff'.persistent,
      (congrArg ClientData.queue hdata).trans hoff'.opened⟩
  · rintro (hnone | ⟨hget, hpers⟩)
    · rw [map_eq_nil_iff] at hnone
      rw [hshare, hnone]
      rfl
    · rw [hshare, foldl_deliver_of_unknown hget hpers message hc]

/-- The routes of a topic. -/
lemma Working.reached (h : b.Working) (upgradeQos : Bool) {topic : Str}
    (ht : checkPublishTopic topic = true) (hclean : ¬endsInEmptyLevels topic) (qos : MqttQoS)
    (message : MqttMessage) (c : Str) :
    Reached b ((b.cacheService.routerCache.getRoutes upgradeQos topic qos.value).foldl
      (deliver message) b) c message
      (b.cacheService.routerCache.deliveries upgradeQos c topic qos) := by
  have hqos : ((b.cacheService.routerCache.getRoutes upgradeQos topic qos.value).filter
      fun route => route.clientId = c).map (fun route => MqttQoS.valueOf route.qos) =
        b.cacheService.routerCache.deliveries upgradeQos c topic qos := by
    rw [h.inv.routers.filter_getRoutes _ ht hclean, map_map]
    refine map_congr_left fun router _ => ?_
    simp only [Function.comp_apply, RouterCache.route, RouterCache.routeQos_eq]
  rw [← hqos]
  exact h.reached_foldl message _ c

end Broker

namespace Verticle

/-- The QoS values that a client gets a message of the verticle with. -/
def deliveries (v : Verticle) (clientId topic : Str) (qos : MqttQoS) : List MqttQoS :=
  v.broker.cacheService.routerCache.deliveries v.config.isSessionUpgradeQos clientId topic qos

/-- **The fan-out is exact.**  Whatever a node has done before, a message that is routed reaches
each client once for each of its subscriptions that match, with the QoS of message and
subscription: the session of a connected client transmits or queues it, an offline persistent one
gets it into its stored queue.  What belongs to any other client, and to one that is not known,
stays. -/
theorem route_exact (config : Config) (nodeId : UUID) (actions : List Restart.Action)
    (n : Restart.Node) (hrun : run Restart.step (.initial config nodeId) actions = some n)
    (v : Verticle) (hbroker : v.broker = n.broker) (origin : Origin) (topic : Str)
    (ht : checkPublishTopic topic = true) (hclean : ¬endsInEmptyLevels topic) (qos : MqttQoS)
    (message : MqttMessage) (c : Str) :
    (∀ w, v.broker.getWrapper c = some w →
      ∃ w', (v.route origin topic qos message).broker.getWrapper c = some w' ∧
        Broker.Takes v.broker (v.route origin topic qos message).broker w w' message
          (v.deliveries c topic qos)) ∧
    (∀ queue, v.broker.Offline c queue →
      (v.route origin topic qos message).broker.Offline c
        (v.broker.storedAfter c message queue (v.deliveries c topic qos))) ∧
    ((v.deliveries c topic qos = [] ∨ v.broker.getWrapper c = none ∧
        v.broker.cacheService.isPersistentSession c = false) →
      (v.route origin topic qos message).broker.share c = v.broker.share c) := by
  have h : v.broker.Working := hbroker ▸ Restart.working_run hrun
  obtain ⟨hconnected, hoffline, huntouched⟩ :=
    h.reached v.config.isSessionUpgradeQos ht hclean qos message c
  exact ⟨hconnected, hoffline, huntouched⟩

/-- A verticle without retained messages, wills and an auth service. -/
def ofBroker (broker : Broker) : Verticle :=
  ⟨⟨false, false, 0, 0⟩, none, broker, .empty, ∅, [], []⟩

/-- A client has a subscription of QoS 1 to the topic `t`, another one of QoS 0. -/
theorem route_exact_sample : ∃ n w w',
    run Restart.step (.initial sampleConfig 1) Restart.sampleActions = some n ∧
      n.broker.getWrapper ['c'] = some w ∧
      ((ofBroker n.broker).route (Deliveries.samplePublish false false) ['t'] .atLeastOnce
        sampleMessage).broker.getWrapper ['c'] = some w' ∧
      Broker.Takes n.broker ((ofBroker n.broker).route (Deliveries.samplePublish false false) ['t']
        .atLeastOnce sampleMessage).broker w w' sampleMessage [.atLeastOnce] := by
  obtain ⟨n, hrun⟩ :
      ∃ n, run Restart.step (.initial sampleConfig 1) Restart.sampleActions = some n :=
    Option.isSome_iff_exists.1 (by decide)
  have hget : (run Restart.step (.initial sampleConfig 1) Restart.sampleActions).map (fun n =>
      (n.broker.getWrapper ['c']).isSome) = some true := by decide
  have hqos : (run Restart.step (.initial sampleConfig 1) Restart.sampleActions).map (fun n =>
      (ofBroker n.broker).deliveries ['c'] ['t'] .atLeastOnce) = some [.atLeastOnce] := by decide
  rw [hrun] at hget hqos
  obtain ⟨w, hw⟩ := Option.isSome_iff_exists.1 (Option.some.inj hget)
  obtain ⟨w', hw', htakes⟩ := (route_exact sampleConfig 1 Restart.sampleActions n hrun
    (ofBroker n.broker) rfl
    (Deliveries.samplePublish false false) ['t'] (by decide) (by decide) .atLeastOnce
    sampleMessage ['c']).1 w hw
  rw [show (ofBroker n.broker).deliveries ['c'] ['t'] .atLeastOnce = _ from
    Option.some.inj hqos] at htakes
  exact ⟨n, w, w', hrun, hw, hw', htakes⟩

end Verticle

end Stuart
