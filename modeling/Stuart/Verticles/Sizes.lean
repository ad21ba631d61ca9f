/-
How many routers and wrappers a node has, and what leaves the numbers as they are.

Most of what a node does changes neither the sessions nor which routers are stored and which
wrappers are registered (`Broker.SameSize`).  `openSession` takes the old wrapper away, puts the
record of the session, deletes the routers of the client unless a persistent session goes on, and
registers the new wrapper.
-/
import Stuart.Services.Openings
import Stuart.Verticles.Access

namespace Stuart

open List Lib

namespace Broker

/-- How many routers of a client are stored. -/
def routerCount (b : Broker) (clientId : Str) : ℕ := b.cacheService.routerCache.countOf clientId

/-- How many wrappers are registered. -/
def wrapperCount (b : Broker) : ℕ := b.wrappers.count fun _ _ => true

/-- The sessions are the same, and so are the keys of the routers and of the wrappers. -/
structure SameSize (b b' : Broker) : Prop where
  sessions : b'.cacheService.sessionCache = b.cacheService.sessionCache
  routers : ∀ key, b'.cacheService.routerCache.routerCache.get key = none ↔
    b.cacheService.routerCache.routerCache.get key = none
  wrappers : ∀ clientId, b'.wrappers.get clientId = none ↔ b.wrappers.get clientId = none

variable {b b' b'' : Broker} {clientId : Str}

lemma SameSize.refl (b : Broker) : SameSize b b := ⟨rfl, fun _ => Iff.rfl, fun _ => Iff.rfl⟩

lemma SameSize.trans (h : SameSize b b') (h' : SameSize b' b'') : SameSize b b'' :=
  ⟨h'.sessions.trans h.sessions, fun key => (h'.routers key).trans (h.routers key),
    fun clientId => (h'.wrappers clientId).trans (h.wrappers clientId)⟩

lemma SameSize.symm (h : SameSize b b') : SameSize b' b :=
  ⟨h.sessions.symm, fun key => (h.routers key).symm, fun clientId => (h.wrappers clientId).symm⟩

lemma SameSize.of_eq (hcache : b'.cacheService = b.cacheService)
    (hwrappers : b'.wrappers = b.wrappers) : SameSize b b' :=
  ⟨by rw [hcache], fun key => by rw [hcache], fun clientId => by rw [hwrappers]⟩

lemma SameSize.routerCount_eq (h : SameSize b b') (clientId : Str) :
    b'.routerCount clientId = b.routerCount clientId :=
  RouterCache.countOf_congr fun topic => h.routers ⟨clientId, topic⟩

lemma SameSize.wrapperCount_eq (h : SameSize b b') : b'.wrapperCount = b.wrapperCount :=
  PlainMap.count_key_congr fun clientId _ => h.wrappers clientId

/-- A wrapper is put in the place of another one. -/
lemma sameSize_putWrapper {w w' : Wrapper} (hget : b.getWrapper clientId = some w)
    (h : SameSize b b') : SameSize b (b'.putWrapper clientId w') := by
  have hv := valid_of_getWrapper hget
  rw [getWrapper_eq hv] at hget
  rw [putWrapper_eq hv]
  refine ⟨h.sessions, h.routers, fun clientId' => ?_⟩
  rw [← h.wrappers clientId']
  show (b'.wrappers.put clientId w').get clientId' = none ↔ _
  rw [PlainMap.get_put]
  split_ifs with heq
  · rw [heq, h.wrappers clientId, hget]
    simp
  · exact Iff.rfl

lemma sameSize_onWrapper {w w' : Wrapper} {f : ∀ {kind}, SessionWrapper kind → SessionWrapper kind}
    (hon : b.onWrapper f w = some (w', b')) : SameSize b b' := by
  obtain ⟨-, hwrappers, -, hrouters⟩ := onWrapper_spec hon
  refine ⟨?_, fun key => by rw [hrouters], fun clientId => by rw [hwrappers]⟩
  cases w with
  | transient fields queue inflights awaits =>
      simp only [Broker.onWrapper, onTransient] at hon
      split at hon
      · cases hon
      · obtain ⟨-, rfl⟩ := Prod.mk.inj (Option.some.inj hon)
        rfl
  | persistent fields =>
      simp only [Broker.onWrapper, onPersistent] at hon
      split at hon
      · obtain ⟨-, rfl⟩ := Prod.mk.inj (Option.some.inj hon)
        rfl
      · cases hon

lemma sameSize_onRegistered (b : Broker) (clientId : Str)
    (f : ∀ {kind}, SessionWrapper kind → SessionWrapper kind) :
    SameSize b (b.onRegistered clientId f) := by
  simp only [Broker.onRegistered]
  cases hget : b.getWrapper clientId with
  | none => exact .refl b
  | some w =>
      dsimp only
      split
      · rename_i w' b' hon
        exact sameSize_putWrapper hget (sameSize_onWrapper hon)
      · exact .refl b

lemma sameSize_receiveQos2Message (b : Broker) (clientId : Str) (awaitMessage : MqttAwaitMessage) :
    SameSize b (b.receiveQos2Message clientId awaitMessage) := by
  simp only [receiveQos2Message]
  split
  · exact .refl b
  · rename_i fields queue inflights awaits hget
    exact sameSize_putWrapper hget (.refl b)
  · split
    · exact .refl b
    · exact ⟨rfl, fun _ => Iff.rfl, fun _ => Iff.rfl⟩

lemma sameSize_handleLocalPublishMessage (b : Broker) (clientId : Str) (message : MqttMessage)
    (qos : MqttQoS) : SameSize b (b.handleLocalPublishMessage clientId message qos) := by
  simp only [Broker.handleLocalPublishMessage]
  split
  · exact sameSize_onRegistered b clientId _
  · split_ifs
    · refine SameSize.trans ?_ (sameSize_onRegistered _ clientId _)
      simp only [CacheService.enqueue]
      split_ifs
      · exact .refl b
      · exact .refl b
      · split
        · exact .refl b
        · exact ⟨rfl, fun _ => Iff.rfl, fun _ => Iff.rfl⟩
    · exact .refl b

lemma sameSize_disconnect (b : Broker) (id : ℕ) : SameSize b (b.disconnect id) :=
  .of_eq (disconnect_cacheService id) (disconnect_wrappers id)

lemma sameSize_accept (b : Broker) (id : ℕ) : SameSize b (b.accept id) :=
  .of_eq (accept_cacheService id) (accept_wrappers id)

lemma sameSize_addEndpoint (b : Broker) (clientId : Str) (cleanSession : Bool) :
    SameSize b (b.addEndpoint clientId cleanSession) := .of_eq rfl rfl

lemma sameSize_buildWrapper (b : Broker) (clientId : Str) (id : ℕ)
    (cleanSession isPersistent : Bool) (old : Option Wrapper) :
    SameSize b (b.buildWrapper clientId id cleanSession isPersistent old).2 := by
  have hnew : SameSize b (b.newPersistent clientId id).2 :=
    ⟨rfl, fun _ => Iff.rfl, fun _ => Iff.rfl⟩
  simp only [Broker.buildWrapper]
  split_ifs
  · exact .refl b
  · cases old with
    | none => exact hnew
    | some w => exact .refl b
  · cases old with
    | none => exact hnew
    | some w => exact hnew

lemma sameSize_openWrapper (b : Broker) (w : Wrapper) : SameSize b (b.openWrapper w).2 := by
  cases w with
  | transient fields queue inflights awaits => exact .refl b
  | persistent fields =>
      have hinit : SameSize b (b.withCache
          (b.cacheService.initPersistentSession fields.thisClientId)) := by
        refine ⟨rfl, fun key => ?_, fun _ => Iff.rfl⟩
        show (PlainMap.mapValues _ b.cacheService.routerCache.routerCache).get key = none ↔ _
        rw [PlainMap.get_mapValues, Option.map_eq_none_iff]
      rw [Broker.openWrapper, onPersistent]
      dsimp only
      split
      · rename_i hon
        split at hon
        · obtain ⟨-, rfl⟩ := Prod.mk.inj (Option.some.inj hon)
          exact hinit.trans ⟨rfl, fun _ => Iff.rfl, fun _ => Iff.rfl⟩
        · cases hon
      · exact hinit

/-! ### The parts of `openSession` and `closeSession` -/

lemma wrapperCount_of_new (hold : b.wrappers.get clientId = none)
    (hnew : b'.wrappers.get clientId ≠ none)
    (h : ∀ clientId' ≠ clientId, b'.wrappers.get clientId' = none ↔
      b.wrappers.get clientId' = none) : b'.wrapperCount = b.wrapperCount + 1 :=
  PlainMap.count_key_of_new rfl hold hnew fun clientId' hne _ => h clientId' hne

lemma wrapperCount_putWrapper (hv : IdUtil.validateClientId clientId = true)
    (hnone : b.wrappers.get clientId = none) (w : Wrapper) :
    (b.putWrapper clientId w).wrapperCount = b.wrapperCount + 1 := by
  rw [putWrapper_eq hv]
  refine wrapperCount_of_new hnone ?_ fun clientId' hne => ?_
  · show (b.wrappers.put clientId w).get clientId ≠ none
    rw [PlainMap.get_put_self]
    simp
  · show (b.wrappers.put clientId w).get clientId' = none ↔ _
    rw [PlainMap.get_put_of_ne _ hne]

lemma wrapperCount_removeWrapper {w : Wrapper} (hget : b.getWrapper clientId = some w) :
    b.wrapperCount = (b.removeWrapper clientId).wrapperCount + 1 := by
  have hv := valid_of_getWrapper hget
  rw [getWrapper_eq hv] at hget
  rw [removeWrapper_eq hv]
  have hsome : b.wrappers.get clientId ≠ none := by simp [hget]
  refine @wrapperCount_of_new _ b clientId ?_ hsome fun clientId' hne => ?_
  · exact PlainMap.get_remove_self _ _
  · show _ ↔ (b.wrappers.remove clientId).get clientId' = none
    rw [PlainMap.get_remove_of_ne _ hne]

/-- Nobody but the client is concerned. -/
lemma SameElse.routerCount_eq (h : SameElse b b' clientId) {clientId' : Str}
    (hne : clientId' ≠ clientId) : b'.routerCount clientId' = b.routerCount clientId' := by
  refine RouterCache.countOf_congr fun topic => ?_
  have hdata := congrFun (congrArg ClientData.routers (h.cache.data clientId' hne)) topic
  exact iff_of_eq (congrArg (· = none) hdata)

/-- The wrapper that `openSession` opens, and the broker before it is registered. -/
def opened (b : Broker) (clientId : Str) (id : ℕ) (cleanSession : Bool) :
    Option Wrapper × Broker :=
  let isPersistent := b.cacheService.isPersistentSession clientId
  let taken := b.takeWrapper clientId cleanSession
  let b := taken.2.teardown clientId cleanSession isPersistent taken.1
  let built := b.buildWrapper clientId id cleanSession isPersistent taken.1
  built.2.openWrapper built.1

/-- What `openSession` does to the sizes before the new wrapper is registered. -/
lemma opened_spec (h : b.Sound) (hv : IdUtil.validateClientId clientId = true) (id : ℕ)
    (cleanSession : Bool) (hb' : (b.opened clientId id cleanSession).2 = b') :
    (∀ clientId' ≠ clientId,
      b'.cacheService.sessionCache.get clientId' = b.cacheService.sessionCache.get clientId' ∧
        b'.routerCount clientId' = b.routerCount clientId') ∧
      b'.routerCount clientId =
        (if (cleanSession || !b.cacheService.isPersistentSession clientId) = true then 0
        else b.routerCount clientId) ∧
      b'.wrappers.get clientId = none ∧
      b'.wrapperCount + (if b.wrappers.get clientId = none then 0 else 1) = b.wrapperCount := by
  unfold opened at hb'
  dsimp only at hb'
  generalize b.cacheService.isPersistentSession clientId = isPersistent at hb' ⊢
  obtain ⟨-, htaken, hnone, -, hdata⟩ := takeWrapper_spec (b := b) hv cleanSession
  obtain ⟨hsound, hold⟩ := h.takeWrapper clientId cleanSession
  generalize b.takeWrapper clientId cleanSession = taken at hb' htaken hnone hdata hsound hold
  obtain ⟨old, t⟩ := taken
  obtain ⟨htorn, hwrappers, -, -, hrouters⟩ := teardown_spec hsound.routers hv hold
    (rfl : t.teardown clientId cleanSession isPersistent old = _)
  generalize t.teardown clientId cleanSession isPersistent old = torn
    at hb' htorn hwrappers hrouters
  have hsame : SameSize torn b' := by
    rw [← hb']
    exact (sameSize_buildWrapper torn clientId id cleanSession isPersistent old).trans
      (sameSize_openWrapper _ _)
  have helse := htaken.trans htorn
  have hnone' : b'.wrappers.get clientId = none := by
    rw [hsame.wrappers, hwrappers]
    exact hnone
  have hother : ∀ clientId' ≠ clientId,
      (b'.wrappers.get clientId' = none ↔ b.wrappers.get clientId' = none) := by
    intro clientId' hne
    rw [hsame.wrappers, helse.wrappers clientId' hne]
  refine ⟨fun clientId' hne => ⟨?_, ?_⟩, ?_, hnone', ?_⟩
  · rw [hsame.sessions]
    exact congrArg ClientData.session (helse.cache.data clientId' hne)
  · rw [hsame.routerCount_eq, helse.routerCount_eq hne]
  · rw [hsame.routerCount_eq]
    have hdelete : (cleanSession || !isPersistent) = true ↔
        cleanSession = true ∨ isPersistent = false := by simp
    split_ifs with hgone
    · rw [if_pos (hdelete.1 hgone)] at hrouters
      exact RouterCache.countOf_eq_zero fun topic => congrFun hrouters topic
    · rw [if_neg fun hd => hgone (hdelete.2 hd)] at hrouters
      refine RouterCache.countOf_congr fun topic => ?_
      have hkept := congrFun hrouters topic
      rw [hdata] at hkept
      exact iff_of_eq (congrArg (· = none) hkept)
  · cases hget : b.wrappers.get clientId with
    | none =>
        rw [if_pos rfl, Nat.add_zero]
        refine PlainMap.count_key_congr fun clientId' _ => ?_
        by_cases heq : clientId' = clientId
        · rw [heq, hnone', hget]
        · exact hother clientId' heq
    | some w =>
        rw [if_neg (by simp)]
        exact (wrapperCount_of_new hnone' (by simp [hget])
          fun clientId' hne => (hother clientId' hne).symm).symm

end Broker

namespace Verticle

variable (v : Verticle)

lemma sameSize_route (origin : Origin) (topic : Str) (qos : MqttQoS) (message : MqttMessage) :
    v.broker.SameSize (v.route origin topic qos message).broker := by
  have hloop : ∀ (routes : List MqttRoute) (b : Broker), b.SameSize (routes.foldl (fun b route =>
      b.handleLocalPublishMessage route.clientId message (MqttQoS.valueOf route.qos)) b) := by
    intro routes
    induction routes with
    | nil => exact Broker.SameSize.refl
    | cons route routes ih =>
        intro b
        exact (Broker.sameSize_handleLocalPublishMessage b _ _ _).trans (ih _)
  exact hloop _ _

lemma sameSize_handlePublish (id : ℕ) (message : MqttPublishMessage) :
    v.broker.SameSize (v.handlePublish id message).broker := by
  simp only [handlePublish]
  cases v.client id with
  | none => exact .refl _
  | some client =>
      have hretain : v.broker.SameSize
          ((v.note (.allowed client (.publish message))).handleRetainMessage message).broker := by
        rw [broker_handleRetainMessage]
        exact .refl _
      dsimp only
      split_ifs
      · exact .refl _
      · exact .refl _
      · cases ((v.note (.allowed client (.publish message))).handleRetainMessage
            message).broker.getWrapper client.clientId with
        | none => exact hretain
        | some w => exact hretain.trans (Broker.sameSize_receiveQos2Message _ _ _)
      · exact hretain.trans (sameSize_route _ _ _ _ _)

lemma sameSize_handleWillPublish (id : ℕ) :
    v.broker.SameSize (v.handleWillPublish id).broker := by
  simp only [handleWillPublish]
  split
  · exact .refl _
  · split
    · exact .refl _
    · rename_i will _
      exact sameSize_route v (.will will) _ _ _

lemma sameSize_handlePublishRetainMessage (clientId topic : Str) (qos : ℤ) :
    v.broker.SameSize (v.handlePublishRetainMessage clientId topic qos).broker := by
  simp only [handlePublishRetainMessage]
  split_ifs
  · exact .refl _
  · exact Broker.sameSize_onRegistered _ _ _

end Verticle

end Stuart
