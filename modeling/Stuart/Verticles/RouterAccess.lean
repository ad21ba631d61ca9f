/-
What the handlers of a verticle do to the routers.

A handler saves and deletes routers one at a time, and nothing else it does touches the router
cache.  `Writes` lists these accesses for a part of a handler; the lists of two parts that follow
each other are appended.  For one key of the cache only the last access to it matters, so a list
of accesses is applied key by key (`RouterAccess.apply`).
-/
import Stuart.Caches.RouterClient
import Stuart.Verticles.Access

namespace Stuart

open List Lib TopicUtil

/-- One access to the router cache. -/
inductive RouterAccess where
  | save (router : MqttRouter)
  | delete (key : MqttRouterKey)
deriving DecidableEq

namespace RouterAccess

def key : RouterAccess → MqttRouterKey
  | .save router => router.key
  | .delete key => key

def on (s : RouterCache) : RouterAccess → RouterCache
  | .save router => s.save router
  | .delete key => s.delete key.clientId key.topic

/-- What an access makes of the router that is stored under a key. -/
def apply (key : MqttRouterKey) (old : Option MqttRouter) : RouterAccess → Option MqttRouter
  | .save router =>
      if key = router.key ∧ IdUtil.validateClientId router.clientId = true ∧
          validateTopic router.topic = true then some router
      else old
  | .delete key' => if key = key' then none else old

lemma apply_of_ne (key : MqttRouterKey) (access : RouterAccess) (old : Option MqttRouter)
    (hne : access.key ≠ key) : apply key old access = old := by
  cases access with
  | save router => exact if_neg fun hand => hne hand.1.symm
  | delete key' => exact if_neg fun heq => hne heq.symm

variable {s : RouterCache}

lemma get_on (h : s.Consistent) (access : RouterAccess) (key : MqttRouterKey) :
    (access.on s).routerCache.get key = access.apply key (s.routerCache.get key) := by
  obtain ⟨clientId, topic⟩ := key
  cases access with
  | save router =>
      have hkey : (⟨clientId, topic⟩ : MqttRouterKey) = router.key ↔
          clientId = router.clientId ∧ topic = router.topic := by simp [MqttRouter.key]
      simp only [on, apply, hkey]
      by_cases hv : IdUtil.validateClientId router.clientId = true ∧
          validateTopic router.topic = true
      · simp only [hv, and_true]
        exact h.routerOf_save router hv.1 hv.2 clientId topic
      · rw [RouterCache.save_of_not_valid, if_neg fun hand => hv hand.2]
        simpa only [Bool.or_eq_true, Bool.not_eq_true', not_and_or, Bool.not_eq_true] using hv
  | delete key' =>
      have hkey : (⟨clientId, topic⟩ : MqttRouterKey) = key' ↔
          clientId = key'.clientId ∧ topic = key'.topic := by
        cases key'
        simp
      simp only [on, apply, hkey]
      exact h.routerOf_delete key'.clientId key'.topic clientId topic

end RouterAccess

namespace Broker

/-- The client id in the registered wrapper of a client. -/
def wrapperClient (b : Broker) (clientId : Str) : Option Str :=
  (b.getWrapper clientId).map fun wrapper => wrapper.fields.thisClientId

/-- From `b` to `b'` the routers are accessed like this, and the wrappers stay registered. -/
structure Writes (b b' : Broker) (accesses : List RouterAccess) : Prop where
  thisNodeId : b'.cacheService.thisNodeId = b.cacheService.thisNodeId
  wrappers : ∀ clientId, b'.wrapperClient clientId = b.wrapperClient clientId
  consistent : b.cacheService.routerCache.Consistent → b'.cacheService.routerCache.Consistent
  get : b.cacheService.routerCache.Consistent → ∀ key,
    b'.cacheService.routerCache.routerCache.get key =
      accesses.foldl (RouterAccess.apply key) (b.cacheService.routerCache.routerCache.get key)

variable {b b' b'' : Broker} {accesses accesses' : List RouterAccess}

lemma Writes.refl (b : Broker) : Writes b b [] := ⟨rfl, fun _ => rfl, id, fun _ _ => rfl⟩

lemma Writes.trans (h : Writes b b' accesses) (h' : Writes b' b'' accesses') :
    Writes b b'' (accesses ++ accesses') where
  thisNodeId := h'.thisNodeId.trans h.thisNodeId
  wrappers := fun clientId => (h'.wrappers clientId).trans (h.wrappers clientId)
  consistent := fun hc => h'.consistent (h.consistent hc)
  get := fun hc key => by rw [h'.get (h.consistent hc), h.get hc, foldl_append]

/-- Nothing happens to the routers. -/
lemma Writes.of_eq (hnode : b'.cacheService.thisNodeId = b.cacheService.thisNodeId)
    (hrouters : b'.cacheService.routerCache = b.cacheService.routerCache)
    (hwrappers : ∀ clientId, b'.wrapperClient clientId = b.wrapperClient clientId) :
    Writes b b' [] := by
  refine ⟨hnode, hwrappers, fun hc => ?_, fun _ key => ?_⟩
  · rw [hrouters]
    exact hc
  · rw [hrouters]
    rfl

lemma writes_save (b : Broker) (clientId topic : Str) (qos : ℤ) :
    Writes b (b.withCache (b.cacheService.saveRouter clientId topic qos))
      [.save ⟨b.cacheService.thisNodeId, clientId, topic, qos⟩] :=
  ⟨rfl, fun _ => rfl, fun hc => hc.save _, fun hc key => RouterAccess.get_on hc (.save _) key⟩

lemma writes_delete (b : Broker) (clientId topic : Str) :
    Writes b (b.withCache (b.cacheService.deleteRouter clientId topic))
      [.delete ⟨clientId, topic⟩] :=
  ⟨rfl, fun _ => rfl, fun hc => hc.delete _ _,
    fun hc key => RouterAccess.get_on hc (.delete ⟨clientId, topic⟩) key⟩

/-! ### Messages -/

/-- A method of a wrapper works on its own messages and its endpoint. -/
lemma onWrapper_spec {w w' : Wrapper} {f : ∀ {kind}, SessionWrapper kind → SessionWrapper kind}
    (hon : b.onWrapper f w = some (w', b')) :
    w'.fields.thisClientId = w.fields.thisClientId ∧ b'.wrappers = b.wrappers ∧
      b'.cacheService.thisNodeId = b.cacheService.thisNodeId ∧
      b'.cacheService.routerCache = b.cacheService.routerCache := by
  cases w with
  | transient fields queue inflights awaits =>
      simp only [Broker.onWrapper, onTransient] at hon
      split at hon
      · cases hon
      · simp only [Option.some.injEq, Prod.mk.injEq] at hon
        obtain ⟨rfl, rfl⟩ := hon
        exact ⟨rfl, rfl, rfl, rfl⟩
  | persistent fields =>
      simp only [Broker.onWrapper, onPersistent] at hon
      split at hon
      · simp only [Option.some.injEq, Prod.mk.injEq] at hon
        obtain ⟨rfl, rfl⟩ := hon
        exact ⟨rfl, rfl, rfl, rfl⟩
      · cases hon

lemma wrapperClient_of_none {clientId : Str} (hget : b.getWrapper clientId = none) :
    b.wrapperClient clientId = none := by
  simp only [wrapperClient, hget, Option.map_none]

lemma wrapperClient_of_some {clientId : Str} {w : Wrapper}
    (hget : b.getWrapper clientId = some w) :
    b.wrapperClient clientId = some w.fields.thisClientId := by
  simp only [wrapperClient, hget, Option.map_some]

/-- A wrapper is registered again. -/
lemma writes_putWrapper {clientId : Str} {w w' : Wrapper} (hget : b.getWrapper clientId = some w)
    (hclient : w'.fields.thisClientId = w.fields.thisClientId)
    (hnode : b'.cacheService.thisNodeId = b.cacheService.thisNodeId)
    (hrouters : b'.cacheService.routerCache = b.cacheService.routerCache)
    (hwrappers : b'.wrappers = b.wrappers) : Writes b (b'.putWrapper clientId w') [] := by
  have hv := valid_of_getWrapper hget
  rw [putWrapper_eq hv]
  refine Writes.of_eq hnode hrouters fun clientId' => ?_
  by_cases heq : clientId' = clientId
  · subst heq
    simp only [wrapperClient, hget, getWrapper_eq hv, PlainMap.get_put_self, Option.map_some,
      hclient]
  · simp only [wrapperClient, getWrapper, hwrappers, PlainMap.get_put_of_ne _ heq]

lemma writes_onRegistered (b : Broker) (clientId : Str)
    (f : ∀ {kind}, SessionWrapper kind → SessionWrapper kind) :
    Writes b (b.onRegistered clientId f) [] := by
  simp only [Broker.onRegistered]
  cases hget : b.getWrapper clientId with
  | none => exact Writes.refl b
  | some w =>
      dsimp only
      split
      · rename_i w' b' hon
        obtain ⟨hclient, hwrappers, hnode, hrouters⟩ := onWrapper_spec hon
        exact writes_putWrapper hget hclient hnode hrouters hwrappers
      · exact Writes.refl b

lemma writes_receiveQos2Message (b : Broker) (clientId : Str) (awaitMessage : MqttAwaitMessage) :
    Writes b (b.receiveQos2Message clientId awaitMessage) [] := by
  simp only [receiveQos2Message]
  split
  · exact Writes.refl b
  · rename_i fields queue inflights awaits hget
    exact writes_putWrapper hget rfl rfl rfl rfl
  · split
    · exact Writes.refl b
    · exact Writes.of_eq rfl rfl fun _ => rfl

lemma writes_releaseQos2Message (b : Broker) (clientId : Str) (messageId : ℤ) :
    Writes b (b.releaseQos2Message clientId messageId).2 [] := by
  simp only [releaseQos2Message]
  split
  · exact Writes.refl b
  · rename_i fields queue inflights awaits hget
    exact writes_putWrapper hget rfl rfl rfl rfl
  · split
    · exact Writes.refl b
    · exact Writes.of_eq rfl rfl fun _ => rfl

lemma writes_handleLocalPublishMessage (b : Broker) (clientId : Str) (message : MqttMessage)
    (qos : MqttQoS) : Writes b (b.handleLocalPublishMessage clientId message qos) [] := by
  simp only [Broker.handleLocalPublishMessage]
  split
  · exact writes_onRegistered b clientId _
  · split_ifs
    · have henqueue :
          Writes b (b.withCache (b.cacheService.enqueue message clientId qos).2) [] := by
        refine Writes.of_eq ?_ ?_ fun _ => rfl
        all_goals
          simp only [withCache, CacheService.enqueue]
          split_ifs
          · rfl
          · rfl
          · split <;> rfl
      exact henqueue.trans (writes_onRegistered _ clientId _)
    · exact Writes.refl b

end Broker

namespace Verticle

def routerCache (v : Verticle) : RouterCache := v.broker.cacheService.routerCache

/-- From `v` to `v'` the routers are accessed like this, and what the handlers ask for stays. -/
structure Writes (v v' : Verticle) (accesses : List RouterAccess) : Prop where
  config : v'.config = v.config
  authService : v'.authService = v.authService
  connections : v'.connections = v.connections
  broker : v.broker.Writes v'.broker accesses

variable {v v' v'' : Verticle} {accesses accesses' : List RouterAccess}

lemma Writes.refl (v : Verticle) : Writes v v [] := ⟨rfl, rfl, rfl, .refl _⟩

lemma Writes.trans (h : Writes v v' accesses) (h' : Writes v' v'' accesses') :
    Writes v v'' (accesses ++ accesses') :=
  ⟨h'.config.trans h.config, h'.authService.trans h.authService,
    h'.connections.trans h.connections, h.broker.trans h'.broker⟩

lemma writes_withBroker {b : Broker} (h : v.broker.Writes b accesses) :
    Writes v (v.withBroker b) accesses := ⟨rfl, rfl, rfl, h⟩

lemma Writes.client (h : Writes v v' accesses) (id : ℕ) : v'.client id = v.client id := by
  simp only [Verticle.client, h.connections]

lemma writes_handleRetainMessage (v : Verticle) (message : MqttPublishMessage) :
    Writes v (v.handleRetainMessage message) [] := by
  simp only [handleRetainMessage]
  split_ifs
  · exact .refl v
  · exact .refl v
  · exact ⟨rfl, rfl, rfl, .refl _⟩
  · exact ⟨rfl, rfl, rfl, .refl _⟩

lemma writes_handlePublishRetainMessage (v : Verticle) (clientId topic : Str) (qos : ℤ) :
    Writes v (v.handlePublishRetainMessage clientId topic qos) [] := by
  simp only [handlePublishRetainMessage]
  split_ifs
  · exact .refl v
  · exact writes_withBroker (Broker.writes_onRegistered _ _ _)

lemma writes_route (v : Verticle) (origin : Origin) (topic : Str) (qos : MqttQoS)
    (message : MqttMessage) : Writes v (v.route origin topic qos message) [] := by
  have hloop : ∀ (routes : List MqttRoute) (b : Broker), b.Writes (routes.foldl (fun b route =>
      b.handleLocalPublishMessage route.clientId message (MqttQoS.valueOf route.qos)) b) [] := by
    intro routes
    induction routes with
    | nil => exact Broker.Writes.refl
    | cons route routes ih =>
        intro b
        exact (Broker.writes_handleLocalPublishMessage b _ _ _).trans (ih _)
  exact ⟨rfl, rfl, rfl, hloop _ _⟩

/-! ### The packets of a client -/

/-- The routers that the loop over the answers to a SUBSCRIBE saves for the client of a wrapper. -/
def saves (v : Verticle) (wrapper : Option Str) (results : List MqttAuthority) :
    List RouterAccess :=
  match wrapper with
  | none => []
  | some clientId => (results.filter (granted v.config.isAuthAclAllowNomatch)).map fun result =>
      .save ⟨v.broker.cacheService.thisNodeId, clientId, result.topic, result.qos⟩

def deletes (wrapper : Option Str) (topics : List Str) : List RouterAccess :=
  match wrapper with
  | none => []
  | some clientId => topics.map fun topic => .delete ⟨clientId, topic⟩

lemma Writes.saves_eq (h : Writes v v' accesses) : v'.saves = v.saves := by
  funext wrapper results
  cases wrapper with
  | none => rfl
  | some clientId => simp only [saves, h.config, h.broker.thisNodeId]

lemma saves_cons_of_granted {result : MqttAuthority}
    (h : granted v.config.isAuthAclAllowNomatch result = true) (clientId : Str)
    (results : List MqttAuthority) : v.saves (some clientId) (result :: results) =
      .save ⟨v.broker.cacheService.thisNodeId, clientId, result.topic, result.qos⟩ ::
        v.saves (some clientId) results := by
  simp only [saves, filter_cons_of_pos h, map_cons]

lemma saves_cons_of_not_granted {result : MqttAuthority}
    (h : ¬granted v.config.isAuthAclAllowNomatch result = true) (wrapper : Option Str)
    (results : List MqttAuthority) :
    v.saves wrapper (result :: results) = v.saves wrapper results := by
  cases wrapper with
  | none => rfl
  | some clientId => simp only [saves, filter_cons_of_neg h]

lemma writes_subscribeAll (client : MqttClient) (results : List MqttAuthority) (v : Verticle) :
    Writes v (subscribeAll client v results).2
      (v.saves (v.broker.wrapperClient client.clientId) results) := by
  induction results generalizing v with
  | nil =>
      cases hw : v.broker.wrapperClient client.clientId with
      | none => exact .refl v
      | some clientId => exact .refl v
  | cons result results ih =>
      simp only [subscribeAll]
      by_cases hgranted : granted v.config.isAuthAclAllowNomatch result = true
      · rw [if_pos hgranted]
        cases hget : v.broker.getWrapper client.clientId with
        | none =>
            rw [Broker.wrapperClient_of_none hget]
            exact .refl v
        | some w =>
            have hsome := Broker.wrapperClient_of_some hget
            have hsave : Writes v ((v.note (.subscribed client result.topic result.qos)).withBroker
                (v.broker.subscribeTopic client.clientId result.topic result.qos))
                [.save ⟨v.broker.cacheService.thisNodeId, w.fields.thisClientId, result.topic,
                  result.qos⟩] := by
              refine ⟨rfl, rfl, rfl, ?_⟩
              simp only [Broker.subscribeTopic, hget]
              exact Broker.writes_save _ _ _ _
            have hfirst := hsave.trans (writes_handlePublishRetainMessage _ client.clientId
              result.topic result.qos)
            rw [append_nil] at hfirst
            have hrest := ih (((v.note (.subscribed client result.topic result.qos)).withBroker
              (v.broker.subscribeTopic client.clientId result.topic
                result.qos)).handlePublishRetainMessage client.clientId result.topic result.qos)
            rw [hfirst.saves_eq, hfirst.broker.wrappers, hsome] at hrest
            rw [hsome, saves_cons_of_granted hgranted]
            exact hfirst.trans hrest
      · rw [if_neg hgranted, saves_cons_of_not_granted hgranted]
        exact ih v

lemma writes_handleSubscribe {id : ℕ} {client : MqttClient} (hclient : v.client id = some client)
    (subs : List MqttTopicSubscription) : Writes v (v.handleSubscribe id subs).2
      (v.saves (v.broker.wrapperClient client.clientId) (v.checkResults client subs)) := by
  simp only [handleSubscribe, hclient]
  exact writes_subscribeAll client _ v

lemma writes_handleUnsubscribe {id : ℕ} {client : MqttClient}
    (hclient : v.client id = some client) (topics : List Str) :
    Writes v (v.handleUnsubscribe id topics)
      (deletes (v.broker.wrapperClient client.clientId) topics) := by
  have hloop : ∀ (topics : List Str) (b : Broker), b.Writes
      (topics.foldl (fun b topic => b.unsubscribeTopic client.clientId topic) b)
      (deletes (b.wrapperClient client.clientId) topics) := by
    intro topics
    induction topics with
    | nil =>
        intro b
        cases b.wrapperClient client.clientId with
        | none => exact .refl b
        | some clientId => exact .refl b
    | cons topic topics ih =>
        intro b
        have hrest := ih (b.unsubscribeTopic client.clientId topic)
        cases hget : b.getWrapper client.clientId with
        | none =>
            have hsame : b.unsubscribeTopic client.clientId topic = b := by
              simp only [Broker.unsubscribeTopic, hget]
            rw [hsame] at hrest
            rw [foldl_cons, hsame]
            rw [Broker.wrapperClient_of_none hget] at hrest ⊢
            exact hrest
        | some w =>
            have hsome := Broker.wrapperClient_of_some hget
            have hfirst : b.Writes (b.unsubscribeTopic client.clientId topic)
                [.delete ⟨w.fields.thisClientId, topic⟩] := by
              simp only [Broker.unsubscribeTopic, hget]
              exact Broker.writes_delete _ _ _
            rw [hfirst.wrappers, hsome] at hrest
            rw [hsome]
            exact hfirst.trans hrest
  simp only [handleUnsubscribe, hclient]
  exact writes_withBroker (hloop topics v.broker)

/-- A PUBLISH does nothing to the routers. -/
lemma writes_handlePublish (v : Verticle) (id : ℕ) (message : MqttPublishMessage) :
    Writes v (v.handlePublish id message) [] := by
  simp only [handlePublish]
  cases hclient : v.client id with
  | none => exact .refl v
  | some client =>
      dsimp only
      split_ifs
      · exact .refl v
      · exact .refl v
      all_goals
        have hnote : Writes v (v.note (.allowed client (.publish message))) [] :=
          ⟨rfl, rfl, rfl, .refl _⟩
        have hretain := hnote.trans (writes_handleRetainMessage _ message)
      · split
        · exact hretain
        · refine hretain.trans ⟨rfl, rfl, rfl, ?_⟩
          exact Broker.writes_receiveQos2Message _ _ _
      · exact hretain.trans (writes_route _ _ _ _ _)

lemma writes_handlePublishRelease (v : Verticle) (id : ℕ) (messageId : ℤ) :
    Writes v (v.handlePublishRelease id messageId) [] := by
  simp only [handlePublishRelease]
  cases v.client id with
  | none => exact .refl v
  | some client =>
      have hreleased := writes_withBroker (v := v)
        (Broker.writes_releaseQos2Message v.broker client.clientId messageId)
      dsimp only
      split
      · exact hreleased
      · exact hreleased.trans (writes_route _ _ _ _ _)

lemma writes_handleWillPublish (v : Verticle) (id : ℕ) : Writes v (v.handleWillPublish id) [] := by
  simp only [handleWillPublish]
  split
  · exact .refl v
  · split
    · exact .refl v
    · rename_i will _
      have hroute := writes_route v (.will will) will.topic will.qos will.convert2MqttMessage
      exact ⟨hroute.config, hroute.authService, hroute.connections, hroute.broker⟩

end Verticle

end Stuart
