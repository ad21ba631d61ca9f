/-
A cluster looked at as if it were one node.

The nodes of a cluster share what is stored, and their ids occur in two kinds of rows only, the
session records and the routers.  `gather` writes one node id into all of them.  Every operation of
the caches gives the same with the rows gathered before as with the rows gathered afterwards, and
the routes of the clustered query are those of the standalone one over the gathered rows.  So a
broker and its `Twin`, which agrees with it about one client, still agree after an operation on
that client.
-/
import Stuart.Caches.ClusteredRoutes
import Stuart.Verticles.Operations

namespace Stuart

open List Lib TopicUtil

namespace RouterCache

/-- All routers on one node. -/
def gather (nodeId : UUID) (s : RouterCache) : RouterCache :=
  { s with routerCache := s.routerCache.mapValues fun router => { router with nodeId } }

variable {s : RouterCache} {m : UUID}

lemma routerOf_gather (clientId topic : Str) :
    (s.gather m).routerOf clientId topic =
      (s.routerOf clientId topic).map fun router => { router with nodeId := m } :=
  PlainMap.get_mapValues _ _ _

lemma Consistent.gather (h : s.Consistent) (m : UUID) : (s.gather m).Consistent := by
  have hget {key : MqttRouterKey} {router : MqttRouter}
      (hget : (s.gather m).routerCache.get key = some router) :
      ∃ old, s.routerCache.get key = some old ∧ router = { old with nodeId := m } := by
    rw [show (s.gather m).routerCache.get key = _ from PlainMap.get_mapValues _ _ _] at hget
    obtain ⟨old, hold, rfl⟩ := Option.map_eq_some_iff.1 hget
    exact ⟨old, hold, rfl⟩
  refine ⟨fun key router hrouter => ?_, fun key router hrouter => ?_, ?_⟩
  · obtain ⟨old, hold, rfl⟩ := hget hrouter
    exact h.keyed key old hold
  · obtain ⟨old, hold, rfl⟩ := hget hrouter
    exact h.valid key old hold
  · have hrefs : (s.gather m).refs = s.refs := funext fun _ => PlainMap.count_mapValues _ _ _
    rw [hrefs]
    exact h.counts

lemma gather_save (router : MqttRouter) :
    (s.save router).gather m = (s.gather m).save { router with nodeId := m } := by
  simp only [RouterCache.save]
  split_ifs
  · rfl
  · have hget : (s.gather m).routerCache.get (MqttRouter.key { router with nodeId := m }) =
        (s.routerCache.get router.key).map fun router => { router with nodeId := m } :=
      PlainMap.get_mapValues _ _ _
    rw [hget]
    cases s.routerCache.get router.key with
    | none => exact congrArg (RouterCache.mk · _) (PlainMap.mapValues_put _ _ _ _)
    | some oldRouter => exact congrArg (RouterCache.mk · _) (PlainMap.mapValues_put _ _ _ _)

lemma gather_delete (clientId topic : Str) :
    (s.delete clientId topic).gather m = (s.gather m).delete clientId topic := by
  have hcontains : (s.gather m).routerCache.containsKey ⟨clientId, topic⟩ =
      s.routerCache.containsKey ⟨clientId, topic⟩ := by
    simp only [PlainMap.containsKey, gather, PlainMap.get_mapValues, Option.isSome_map]
  simp only [RouterCache.delete]
  rw [hcontains]
  split_ifs
  · rfl
  · exact congrArg (RouterCache.mk · _) (PlainMap.mapValues_remove _ _ _)
  · rfl

lemma topicsOf_gather (clientId : Str) : (s.gather m).topicsOf clientId = s.topicsOf clientId := by
  simp only [topicsOf, gather, PlainMap.values_mapValues, filter_map, map_map]
  rfl

lemma gather_deleteClient (clientId : Str) :
    (s.deleteClient clientId).gather m = (s.gather m).deleteClient clientId := by
  simp only [RouterCache.deleteClient]
  rw [topicsOf_gather]
  split_ifs
  · rfl
  · generalize s.topicsOf clientId = topics
    induction topics generalizing s with
    | nil => rfl
    | cons topic topics ih =>
        rw [foldl_cons, foldl_cons, ← gather_delete]
        exact ih

/-- Wherever an update moves the routers of a client, they are gathered. -/
lemma gather_update (clientId : Str) (nodeId : UUID) :
    (s.update clientId nodeId).gather m = (s.gather m).update clientId m := by
  simp only [RouterCache.update, gather, PlainMap.mapValues_mapValues]
  congr 2
  funext router
  split_ifs <;> rfl

lemma queryMatches_gather (parent : Option Str) (words : List Str) :
    (s.gather m).queryMatches parent words = s.queryMatches parent words := by
  induction words generalizing parent with
  | nil => rfl
  | cons word left ih =>
      simp only [queryMatches, ih]
      rfl

/-- The routes of the clustered query, without their nodes. -/
lemma getRoutes_gather (upgradeQos : Bool) (topic : Str) (qos : ℤ) :
    (s.gather m).getRoutes upgradeQos topic qos =
      (s.getClusteredRoutes upgradeQos topic qos).map fun route =>
        { route with nodeId := none } := by
  have hmatches : (s.gather m).getMatches topic = s.getMatches topic := by
    simp only [getMatches]
    rw [queryMatches_gather]
  simp only [getRoutes, getClusteredRoutes]
  rw [hmatches]
  cases s.getMatches topic with
  | none => rfl
  | some found =>
      dsimp only
      split_ifs
      · rfl
      · simp only [gather, PlainMap.values_mapValues, filter_map, map_map]
        rfl

end RouterCache

namespace CacheService

/-- All rows on one node. -/
def gather (nodeId : UUID) (s : CacheService) : CacheService :=
  { s with
    thisNodeId := nodeId
    sessionCache := s.sessionCache.mapValues fun session => { session with nodeId }
    routerCache := s.routerCache.gather nodeId }

variable {s : CacheService} {m : UUID} {clientId : Str}

lemma getSession_gather : (s.gather m).getSession clientId =
    (s.getSession clientId).map fun session => { session with nodeId := m } := by
  simp only [getSession]
  split_ifs
  · rfl
  · exact PlainMap.get_mapValues _ _ _

lemma isPersistentSession_gather :
    (s.gather m).isPersistentSession clientId = s.isPersistentSession clientId := by
  simp only [isPersistentSession]
  rw [getSession_gather]
  cases s.getSession clientId <;> rfl

lemma data_gather : (s.gather m).data clientId =
    { s.data clientId with
      session := (s.data clientId).session.map fun session => { session with nodeId := m }
      routers := fun topic => ((s.data clientId).routers topic).map fun router =>
        { router with nodeId := m } } := by
  simp only [data, ClientData.mk.injEq]
  exact ⟨PlainMap.get_mapValues _ _ _, funext fun topic => RouterCache.routerOf_gather _ _, rfl,
    rfl, rfl⟩

/-- The operation treats the rows of all nodes alike. -/
def Blind (m : UUID) (f : CacheService → CacheService) : Prop :=
  ∀ s, (f s).gather m = f (s.gather m)

lemma blind_saveSession (clientId : Str) (cleanSession : Bool) :
    Blind m fun s => s.saveSession ⟨clientId, cleanSession, s.thisNodeId⟩ := by
  intro s
  simp only [saveSession]
  split_ifs
  · rfl
  · simp only [gather, PlainMap.mapValues_put]

lemma blind_deleteSession (clientId : Str) : Blind m fun s => s.deleteSession clientId := by
  intro s
  simp only [deleteSession]
  split_ifs
  · rfl
  · simp only [gather, PlainMap.mapValues_remove]

lemma blind_saveRouter (clientId topic : Str) (qos : ℤ) :
    Blind m fun s => s.saveRouter clientId topic qos := by
  intro s
  simp only [saveRouter, gather, RouterCache.gather_save]

lemma blind_deleteRouter (clientId topic : Str) :
    Blind m fun s => s.deleteRouter clientId topic := by
  intro s
  simp only [deleteRouter, gather, RouterCache.gather_delete]

lemma blind_initPersistentSession (clientId : Str) :
    Blind m fun s => s.initPersistentSession clientId := by
  intro s
  simp only [initPersistentSession, updateRouter, gather, RouterCache.gather_update]

lemma blind_destroyTransientSession (clientId : Str) :
    Blind m fun s => s.destroyTransientSession clientId := by
  intro s
  simp only [destroyTransientSession, deleteRouters, gather, RouterCache.gather_deleteClient]

lemma blind_destroyPersistentSession (clientId : Str) :
    Blind m fun s => s.destroyPersistentSession clientId := by
  intro s
  simp only [destroyPersistentSession, deleteRouters, closeAwait, closeQueue, closeInflight, gather,
    RouterCache.gather_deleteClient]

lemma blind_enqueue (message : MqttMessage) (clientId : Str) (qos : MqttQoS) :
    Blind m fun s => (s.enqueue message clientId qos).2 := by
  intro s
  simp only [enqueue]
  have hconfig : (s.gather m).config = s.config := rfl
  have hqueue : (s.gather m).queueCache = s.queueCache := rfl
  rw [hconfig, hqueue]
  split_ifs
  · rfl
  · rfl
  · cases s.queueCache.get clientId <;> rfl

lemma blind_storeSession (clientId : Str) (queue : BoundedQueue MqttMessage)
    (inflights : BoundedIgniteMapUnsafe ℤ MqttMessage) :
    Blind m fun s => s.storeSession clientId queue inflights := fun _ => rfl

lemma blind_putAwaits (clientId : Str) (awaits : BoundedIgniteMap ℤ MqttAwaitMessage) :
    Blind m fun s => { s with awaitCache := s.awaitCache.put clientId awaits } := fun _ => rfl

end CacheService

namespace Broker

/-- A broker is as sound as the one with gathered rows, if the records of its wrappers name its
node. -/
lemma Own.of_gather {m : UUID} {v b : Broker} {c : Str} (h : b.Own c)
    (hcache : b.cacheService = v.cacheService.gather m) (hends : b.endpoints = v.endpoints)
    (hwrapper : ∀ w, v.wrappers.get c = some w → b.wrappers.get c = some w ∧
      ∃ session, (v.cacheService.data c).session = some session ∧
        session.nodeId = v.cacheService.thisNodeId) : v.Own c := by
  have howner (id : ℕ) : v.owner id = b.owner id := by
    simp only [Broker.owner, Broker.endpoint]
    rw [hends]
  have hdata : b.cacheService.data c = _ :=
    (congrArg (CacheService.data · c) hcache).trans CacheService.data_gather
  have hsession := congrArg ClientData.session hdata
  have hawaits : (b.cacheService.data c).awaits = (v.cacheService.data c).awaits :=
    (congrArg ClientData.awaits hdata :)
  have hinflights : (b.cacheService.data c).inflights = (v.cacheService.data c).inflights :=
    (congrArg ClientData.inflights hdata :)
  have hqueue : (b.cacheService.data c).queue = (v.cacheService.data c).queue :=
    (congrArg ClientData.queue hdata :)
  refine ⟨fun hnot => ?_, fun inflights hi => h.keyed inflights (hinflights.trans hi),
    fun w hget => ?_⟩
  · have hnot' : ¬(b.cacheService.data c).Persistent := by
      rintro ⟨session, hs, hclean⟩
      obtain ⟨session', hs', rfl⟩ := Option.map_eq_some_iff.1 (hsession.symm.trans hs)
      exact hnot ⟨session', hs', hclean⟩
    obtain ⟨ha, hi, hq⟩ := h.stores hnot'
    exact ⟨hawaits.symm.trans ha, hinflights.symm.trans hi, hqueue.symm.trans hq⟩
  · obtain ⟨hget', session, hs, hnode⟩ := hwrapper w hget
    have hl := h.live w hget'
    refine ⟨hl.valid, hl.client, ?_, (howner _).trans hl.owner,
      fun id flag hlt => (howner id).symm ▸ hl.latest id flag hlt, fun hkind => ?_⟩
    · have hrow := hsession.symm.trans hl.session
      dsimp only at hrow
      rw [hs, Option.map_some, Option.some.injEq, MqttSession.mk.injEq] at hrow
      rw [hs, ← hnode, ← hrow.1, ← hrow.2.1]
    · obtain ⟨⟨awaits, ha⟩, ⟨inflights, hi⟩, queue, hq, hcap, hbounded⟩ := hl.opened hkind
      refine ⟨⟨awaits, hawaits.symm.trans ha⟩, ⟨inflights, hinflights.symm.trans hi⟩, queue,
        hqueue.symm.trans hq, ?_, hbounded⟩
      rw [hcap, hcache]
      rfl

/-- The two brokers agree on a client, but for the nodes. -/
structure Twin (m : UUID) (clientId : Str) (v b : Broker) : Prop where
  cacheService : b.cacheService = v.cacheService.gather m
  endpoints : b.endpoints = v.endpoints
  wrapper : b.wrappers.get clientId = v.wrappers.get clientId

namespace Twin

variable {m : UUID} {clientId : Str} {v b : Broker}

lemma endpoint (h : Twin m clientId v b) (id : ℕ) : b.endpoint id = v.endpoint id := by
  simp only [Broker.endpoint]
  rw [h.endpoints]

lemma getWrapper (h : Twin m clientId v b) : b.getWrapper clientId = v.getWrapper clientId := by
  simp only [Broker.getWrapper]
  rw [h.wrapper]

lemma isPersistentSession (h : Twin m clientId v b) (c : Str) :
    b.cacheService.isPersistentSession c = v.cacheService.isPersistentSession c := by
  rw [h.cacheService, CacheService.isPersistentSession_gather]

lemma withCache (h : Twin m clientId v b) {f : CacheService → CacheService}
    (hf : CacheService.Blind m f) :
    Twin m clientId (v.withCache (f v.cacheService)) (b.withCache (f b.cacheService)) := by
  refine ⟨?_, h.endpoints, h.wrapper⟩
  simp only [Broker.withCache]
  rw [h.cacheService, hf]

lemma setEndpoint (h : Twin m clientId v b) (id : ℕ) (endpoint : MqttEndpoint) :
    Twin m clientId (v.setEndpoint id endpoint) (b.setEndpoint id endpoint) :=
  ⟨h.cacheService, congrArg (List.set · id endpoint) h.endpoints, h.wrapper⟩

lemma putWrapper (h : Twin m clientId v b) (w : Wrapper) :
    Twin m clientId (v.putWrapper clientId w) (b.putWrapper clientId w) := by
  simp only [Broker.putWrapper]
  split_ifs
  · exact h
  · refine ⟨h.cacheService, h.endpoints, ?_⟩
    simp only [PlainMap.get_put_self]

lemma removeWrapper (h : Twin m clientId v b) :
    Twin m clientId (v.removeWrapper clientId) (b.removeWrapper clientId) := by
  simp only [Broker.removeWrapper]
  split_ifs
  · exact h
  · refine ⟨h.cacheService, h.endpoints, ?_⟩
    simp only [PlainMap.get_remove_self]

lemma isConnected (h : Twin m clientId v b) (id : ℕ) : b.isConnected id = v.isConnected id := by
  simp only [Broker.isConnected]
  rw [h.endpoint]

lemma disconnect (h : Twin m clientId v b) (id : ℕ) :
    Twin m clientId (v.disconnect id) (b.disconnect id) := by
  simp only [Broker.disconnect]
  rw [h.endpoint]
  cases v.endpoint id with
  | none => exact h
  | some endpoint => exact h.setEndpoint _ _

lemma closeEndpoint (h : Twin m clientId v b) (w : Wrapper) :
    Twin m clientId (v.closeEndpoint w) (b.closeEndpoint w) := by
  simp only [Broker.closeEndpoint]
  rw [h.isConnected]
  split_ifs
  · exact h.disconnect _
  · exact h

lemma closeWrapper (h : Twin m clientId v b) (w : Wrapper) :
    Twin m clientId (v.closeWrapper w) (b.closeWrapper w) := by
  cases w with
  | transient fields queue inflights awaits =>
      exact (h.closeEndpoint _).withCache (CacheService.blind_destroyTransientSession _)
  | persistent fields =>
      exact (h.closeEndpoint _).withCache (CacheService.blind_destroyPersistentSession _)

/-! ### The parts of `openSession` -/

lemma takeWrapper (h : Twin m clientId v b) (cleanSession : Bool) :
    (b.takeWrapper clientId cleanSession).1 = (v.takeWrapper clientId cleanSession).1 ∧
      Twin m clientId (v.takeWrapper clientId cleanSession).2
        (b.takeWrapper clientId cleanSession).2 :=
  ⟨h.getWrapper, h.removeWrapper.withCache (CacheService.blind_saveSession clientId cleanSession)⟩

lemma teardown (h : Twin m clientId v b) (cleanSession isPersistent : Bool)
    (old : Option Wrapper) :
    Twin m clientId (v.teardown clientId cleanSession isPersistent old)
      (b.teardown clientId cleanSession isPersistent old) := by
  cases old with
  | none =>
      simp only [Broker.teardown]
      split_ifs
      · exact h.withCache (CacheService.blind_destroyPersistentSession clientId)
      · exact h.withCache (CacheService.blind_destroyTransientSession clientId)
      · exact h
  | some w =>
      simp only [Broker.teardown]
      split_ifs
      · exact h.closeWrapper w
      · exact h.closeEndpoint w
      · exact h.closeWrapper w

lemma newPersistent (h : Twin m clientId v b) (id : ℕ) :
    (b.newPersistent clientId id).1 = (v.newPersistent clientId id).1 ∧
      Twin m clientId (v.newPersistent clientId id).2 (b.newPersistent clientId id).2 :=
  ⟨rfl, h.withCache (f := fun s =>
    (((s.openAwait clientId).2.openQueue clientId).2.openInflight clientId).2) fun _ => rfl⟩

lemma buildWrapper (h : Twin m clientId v b) (id : ℕ) (cleanSession isPersistent : Bool)
    (old : Option Wrapper) :
    (b.buildWrapper clientId id cleanSession isPersistent old).1 =
        (v.buildWrapper clientId id cleanSession isPersistent old).1 ∧
      Twin m clientId (v.buildWrapper clientId id cleanSession isPersistent old).2
        (b.buildWrapper clientId id cleanSession isPersistent old).2 := by
  have hconfig : b.cacheService.config = v.cacheService.config := by
    rw [h.cacheService]
    rfl
  cases cleanSession with
  | true =>
      refine ⟨?_, h⟩
      simp only [Broker.buildWrapper, newTransient, if_true]
      rw [hconfig]
  | false =>
      cases old with
      | none => exact h.newPersistent id
      | some w =>
          cases isPersistent with
          | true => exact ⟨rfl, h⟩
          | false => exact h.newPersistent id

/-! ### The methods of a wrapper -/

lemma onPersistent (h : Twin m clientId v b) (fields : WrapperFields)
    (f : SessionWrapper .persistent → SessionWrapper .persistent) :
    v.onPersistent fields f = none ∧ b.onPersistent fields f = none ∨
      ∃ w v' b', v.onPersistent fields f = some (w, v') ∧ b.onPersistent fields f = some (w, b') ∧
        Twin m clientId v' b' := by
  obtain ⟨hconfig, hqueue, hinflight⟩ : b.cacheService.config = v.cacheService.config ∧
      b.cacheService.queueCache = v.cacheService.queueCache ∧
      b.cacheService.inflightCache = v.cacheService.inflightCache := by
    rw [h.cacheService]
    exact ⟨rfl, rfl, rfl⟩
  simp only [Broker.onPersistent]
  rw [h.endpoint, hqueue, hinflight, hconfig]
  cases v.endpoint fields.endpoint with
  | none => exact Or.inl ⟨rfl, rfl⟩
  | some endpoint =>
      cases v.cacheService.queueCache.get fields.thisClientId with
      | none => exact Or.inl ⟨rfl, rfl⟩
      | some queue =>
          cases v.cacheService.inflightCache.get fields.thisClientId with
          | none => exact Or.inl ⟨rfl, rfl⟩
          | some inflights =>
              exact Or.inr ⟨_, _, _, rfl, rfl,
                (h.setEndpoint _ _).withCache (CacheService.blind_storeSession _ _ _)⟩

/-- A method of a wrapper gives the same wrapper, or fails in both brokers. -/
lemma onWrapper (h : Twin m clientId v b) (f : ∀ {kind}, SessionWrapper kind → SessionWrapper kind)
    (w : Wrapper) :
    v.onWrapper f w = none ∧ b.onWrapper f w = none ∨
      ∃ w' v' b', v.onWrapper f w = some (w', v') ∧ b.onWrapper f w = some (w', b') ∧
        Twin m clientId v' b' := by
  cases w with
  | transient fields queue inflights awaits =>
      have hconfig : b.cacheService.config = v.cacheService.config := by
        rw [h.cacheService]
        rfl
      simp only [Broker.onWrapper, onTransient]
      rw [h.endpoint, hconfig]
      cases v.endpoint fields.endpoint with
      | none => exact Or.inl ⟨rfl, rfl⟩
      | some endpoint => exact Or.inr ⟨_, _, _, rfl, rfl, h.setEndpoint _ _⟩
  | persistent fields => exact h.onPersistent fields f

lemma openWrapper (h : Twin m clientId v b) (w : Wrapper) :
    (b.openWrapper w).1 = (v.openWrapper w).1 ∧
      Twin m clientId (v.openWrapper w).2 (b.openWrapper w).2 := by
  cases w with
  | transient fields queue inflights awaits => exact ⟨rfl, h⟩
  | persistent fields =>
      have hinit := h.withCache (CacheService.blind_initPersistentSession fields.thisClientId)
      simp only [Broker.openWrapper]
      rcases hinit.onPersistent fields PersistentSessionWrapper.openWrapper with
        ⟨hv, hb⟩ | ⟨w', v', b', hv, hb, h'⟩
      · rw [hv, hb]
        exact ⟨rfl, hinit⟩
      · rw [hv, hb]
        exact ⟨rfl, h'⟩

lemma openSession (h : Twin m clientId v b) (id : ℕ) (cleanSession : Bool) :
    Twin m clientId (v.openSession clientId id cleanSession)
      (b.openSession clientId id cleanSession) := by
  obtain ⟨htaken, htake⟩ := h.takeWrapper cleanSession
  simp only [Broker.openSession]
  rw [h.isPersistentSession, htaken]
  obtain ⟨hbuilt, hbuild⟩ := (htake.teardown cleanSession _ _).buildWrapper id cleanSession
    (v.cacheService.isPersistentSession clientId) (v.takeWrapper clientId cleanSession).1
  rw [hbuilt]
  obtain ⟨hopened, hopen⟩ := hbuild.openWrapper _
  revert hopened hopen
  generalize Broker.openWrapper (Prod.snd _) _ = p
  generalize Broker.openWrapper (Prod.snd _) _ = q
  intro hopened hopen
  obtain ⟨_ | wrapper, b'⟩ := p
  · obtain ⟨_, v'⟩ := q
    obtain rfl := hopened
    exact hopen
  · obtain ⟨_, v'⟩ := q
    obtain rfl := hopened
    exact hopen.putWrapper wrapper

lemma accept (h : Twin m clientId v b) (id : ℕ) :
    Twin m clientId (v.accept id) (b.accept id) := by
  simp only [Broker.accept]
  rw [h.endpoint]
  cases v.endpoint id with
  | none => exact h
  | some endpoint =>
      dsimp only
      cases endpoint.accept with
      | none => exact h
      | some endpoint' => exact h.setEndpoint _ _

lemma handleAccept (h : Twin m clientId v b) (cleanSession : Bool) :
    Twin m clientId (v.handleAccept clientId cleanSession).2
      (b.handleAccept clientId cleanSession).2 := by
  have hadd : Twin m clientId (v.addEndpoint clientId cleanSession)
      (b.addEndpoint clientId cleanSession) := by
    refine ⟨h.cacheService, ?_, h.wrapper⟩
    simp only [addEndpoint]
    rw [h.endpoints]
  have hlength : b.endpoints.length = v.endpoints.length := by rw [h.endpoints]
  have hopen := (hadd.openSession v.endpoints.length cleanSession).accept v.endpoints.length
  simp only [Broker.handleAccept]
  rw [hlength]
  simp only [addEndpoint] at hopen
  rw [hlength] at hopen
  exact hopen

/-! ### Packets and messages -/

lemma onRegistered (h : Twin m clientId v b)
    (f : ∀ {kind}, SessionWrapper kind → SessionWrapper kind) :
    Twin m clientId (v.onRegistered clientId f) (b.onRegistered clientId f) := by
  simp only [Broker.onRegistered]
  rw [h.getWrapper]
  cases v.getWrapper clientId with
  | none => exact h
  | some w =>
      rcases h.onWrapper f w with ⟨hv, hb⟩ | ⟨w', v', b', hv, hb, h'⟩
      · simp only [hv, hb]
        exact h
      · simp only [hv, hb]
        exact h'.putWrapper w'

lemma subscribeTopic (h : Twin m clientId v b) (topic : Str) (qos : ℤ) :
    Twin m clientId (v.subscribeTopic clientId topic qos)
      (b.subscribeTopic clientId topic qos) := by
  simp only [Broker.subscribeTopic]
  rw [h.getWrapper]
  cases v.getWrapper clientId with
  | none => exact h
  | some w => exact h.withCache (CacheService.blind_saveRouter _ topic qos)

lemma unsubscribeTopic (h : Twin m clientId v b) (topic : Str) :
    Twin m clientId (v.unsubscribeTopic clientId topic) (b.unsubscribeTopic clientId topic) := by
  simp only [Broker.unsubscribeTopic]
  rw [h.getWrapper]
  cases v.getWrapper clientId with
  | none => exact h
  | some w => exact h.withCache (CacheService.blind_deleteRouter _ topic)

lemma enqueue (h : Twin m clientId v b) (message : MqttMessage) (c : Str) (qos : MqttQoS) :
    Twin m clientId (v.withCache (v.cacheService.enqueue message c qos).2)
      (b.withCache (b.cacheService.enqueue message c qos).2) :=
  h.withCache (CacheService.blind_enqueue message c qos)

lemma handleLocalPublishMessage (h : Twin m clientId v b) (message : MqttMessage) (qos : MqttQoS) :
    Twin m clientId (v.handleLocalPublishMessage clientId message qos)
      (b.handleLocalPublishMessage clientId message qos) := by
  simp only [Broker.handleLocalPublishMessage]
  rw [h.getWrapper, h.isPersistentSession]
  cases v.getWrapper clientId with
  | some w => exact h.onRegistered fun w => w.publishMessage message qos
  | none =>
      dsimp only
      split_ifs
      · exact (h.enqueue message clientId qos).onRegistered fun w => w.publishCachedMessage
      · exact h

lemma awaits (h : Twin m clientId v b) (c : Str) :
    b.cacheService.awaitCache.get c = v.cacheService.awaitCache.get c := by
  rw [h.cacheService]
  rfl

lemma receiveQos2Message (h : Twin m clientId v b) (awaitMessage : MqttAwaitMessage) :
    Twin m clientId (v.receiveQos2Message clientId awaitMessage)
      (b.receiveQos2Message clientId awaitMessage) := by
  simp only [Broker.receiveQos2Message]
  rw [h.getWrapper]
  cases v.getWrapper clientId with
  | none => exact h
  | some w =>
      cases w with
      | transient fields queue inflights awaits =>
          have hconfig : b.cacheService.config = v.cacheService.config := by
            rw [h.cacheService]
            rfl
          dsimp only
          rw [hconfig]
          exact h.putWrapper _
      | persistent fields =>
          dsimp only
          rw [h.awaits]
          cases v.cacheService.awaitCache.get fields.thisClientId with
          | none => exact h
          | some awaits => exact h.withCache (CacheService.blind_putAwaits _ _)

lemma releaseQos2Message (h : Twin m clientId v b) (messageId : ℤ) :
    Twin m clientId (v.releaseQos2Message clientId messageId).2
      (b.releaseQos2Message clientId messageId).2 := by
  simp only [Broker.releaseQos2Message]
  rw [h.getWrapper]
  cases v.getWrapper clientId with
  | none => exact h
  | some w =>
      cases w with
      | transient fields queue inflights awaits => exact h.putWrapper _
      | persistent fields =>
          dsimp only
          rw [h.awaits]
          cases v.cacheService.awaitCache.get fields.thisClientId with
          | none => exact h
          | some awaits => exact h.withCache (CacheService.blind_putAwaits _ _)

/-- An operation on the client, other than a connection or the end of one. -/
lemma perform (h : Twin m clientId v b) {operation : Operation}
    (hclient : operation.client = some clientId) (hnot : ¬operation.Connects clientId) :
    Twin m clientId (v.perform operation) (b.perform operation) := by
  cases operation with
  | call c method =>
      obtain rfl := Option.some.inj hclient
      exact h.onRegistered method.call
  | releaseQos2 c messageId =>
      obtain rfl := Option.some.inj hclient
      exact h.releaseQos2Message messageId
  | op op =>
      cases op with
      | connect c cleanSession =>
          obtain rfl := Option.some.inj hclient
          have hv : ¬IdUtil.validateClientId c = true := fun hv => hnot ⟨hv, cleanSession, rfl⟩
          have hstep (u : Broker) : u.perform (.op (.connect c cleanSession)) = u := if_neg hv
          rw [hstep, hstep]
          exact h
      | close id => cases hclient
      | subscribeTopic c topic qos =>
          obtain rfl := Option.some.inj hclient
          exact h.subscribeTopic topic qos
      | unsubscribeTopic c topic =>
          obtain rfl := Option.some.inj hclient
          exact h.unsubscribeTopic topic
      | publish c message qos =>
          obtain rfl := Option.some.inj hclient
          exact h.handleLocalPublishMessage message qos
      | receiveQos2 c awaitMessage =>
          obtain rfl := Option.some.inj hclient
          exact h.receiveQos2Message awaitMessage

end Twin

end Broker

end Stuart
