/-
The gauges of a node, and the stores that they count.

The gauges move by one beside the operation on the store, at the places where it is called.  A
subscription looks whether there is a router already, and so the topic count is right there.  But an
UNSUBSCRIBE counts every topic of it, a retained PUBLISH counts whatever the store does with it, and
a session counts also if it takes the place of another one.  All gauges stay equal to what they
count iff none of the three happens (`gauges_exact_iff`).
-/
import Stuart.Verticles.SubAck
import Stuart.Verticles.RetainedStore
import Stuart.Verticles.Sizes

namespace Stuart

open List Lib TopicUtil AuthUtil

/-- The gauges after all tasks of the metrics service. -/
structure Gauges where
  retainCount : ℤ
  /-- the topic counts of the clients that have one -/
  topicCount : PlainMap Str ℤ
  sessCount : ℤ

namespace Gauges

def recordRetain (g : Gauges) (value : ℤ) : Gauges :=
  { g with retainCount := g.retainCount + value }

/-- Nothing happens without a count for the client. -/
def recordTopic (g : Gauges) (clientId : Str) (value : ℤ) : Gauges :=
  match g.topicCount.get clientId with
  | none => g
  | some count => { g with topicCount := g.topicCount.put clientId (count + value) }

def recordSess (g : Gauges) (value : ℤ) : Gauges := { g with sessCount := g.sessCount + value }

/-- `saveSession`: the count of a new session is 0; a persistent one that was persistent is not
new. -/
def saveSession (g : Gauges) (s : CacheService) (clientId : Str) (cleanSession : Bool) : Gauges :=
  if !IdUtil.validateClientId clientId then g
  else if cleanSession || !s.isPersistentSession clientId then
    { g with topicCount := g.topicCount.put clientId 0 }
  else g

def deleteSession (g : Gauges) (clientId : Str) : Gauges :=
  { g with topicCount := g.topicCount.remove clientId }

/-! ### What the operations record -/

def handleRetainMessage (v : Verticle) (message : MqttPublishMessage) (g : Gauges) : Gauges :=
  if !message.isRetain then g
  else if (message.payload.length : ℤ) > v.config.mqttRetainMaxPayload then g
  else if message.payload.isEmpty then g.recordRetain (-1)
  else g.recordRetain 1

def handlePublish (v : Verticle) (id : ℕ) (message : MqttPublishMessage) (g : Gauges) : Gauges :=
  match v.client id with
  | none => g
  | some client =>
      if !checkPublishTopic message.topicName then g
      else if !canAccess v.config.isAuthAclAllowNomatch .pub
          (some (v.checkResult client message.topicName)) then g
      else g.handleRetainMessage v message

/-- `wrapper.subscribeTopic`: a router that is stored already is not counted again. -/
def subscribeTopic (b : Broker) (clientId topic : Str) (g : Gauges) : Gauges :=
  match b.getWrapper clientId with
  | none => g
  | some w =>
      match b.cacheService.routerCache.get w.fields.thisClientId topic with
      | some _ => g
      | none => g.recordTopic w.fields.thisClientId 1

/-- `wrapper.unsubscribeTopic`. -/
def unsubscribeTopic (b : Broker) (clientId : Str) (g : Gauges) : Gauges :=
  match b.getWrapper clientId with
  | none => g
  | some w => g.recordTopic w.fields.thisClientId (-1)

/-- Along the loop of `handleSubscribe`. -/
def subscribeAll (client : MqttClient) : Verticle → List MqttAuthority → Gauges → Gauges
  | _, [], g => g
  | v, result :: results, g =>
      if Verticle.granted v.config.isAuthAclAllowNomatch result then
        match v.broker.getWrapper client.clientId with
        | none => g
        | some _ =>
            let v' := (v.note (.subscribed client result.topic result.qos)).withBroker
              (v.broker.subscribeTopic client.clientId result.topic result.qos)
            subscribeAll client
              (v'.handlePublishRetainMessage client.clientId result.topic result.qos) results
              (g.subscribeTopic v.broker client.clientId result.topic)
      else subscribeAll client v results g

def handleSubscribe (v : Verticle) (id : ℕ) (subs : List MqttTopicSubscription) (g : Gauges) :
    Gauges :=
  match v.client id with
  | none => g
  | some client => subscribeAll client v (v.checkResults client subs) g

/-- Along the loop of `handleUnsubscribe`. -/
def unsubscribeAll (clientId : Str) : Broker → List Str → Gauges → Gauges
  | _, [], g => g
  | b, topic :: topics, g =>
      unsubscribeAll clientId (b.unsubscribeTopic clientId topic) topics
        (g.unsubscribeTopic b clientId)

def handleUnsubscribe (v : Verticle) (id : ℕ) (topics : List Str) (g : Gauges) : Gauges :=
  match v.client id with
  | none => g
  | some client => unsubscribeAll client.clientId v.broker topics g

/-- `openSession`: the session is counted at the end, unless `open` throws. -/
def openSession (b : Broker) (clientId : Str) (id : ℕ) (cleanSession : Bool) (g : Gauges) :
    Gauges :=
  let g := g.saveSession b.cacheService clientId cleanSession
  match b.opened clientId id cleanSession with
  | (some _, _) => g.recordSess 1
  | (none, _) => g

def closeLocked (b : Broker) (endpoint : MqttEndpoint) (id : ℕ) (g : Gauges) : Gauges :=
  let clientId := endpoint.clientIdentifier
  match b.getWrapper clientId with
  | none => g
  | some wrapper =>
      if wrapper.isSameEndpoint id then
        match b.cacheService.getSession clientId with
        | none => g.recordSess (-1)
        | some session =>
            if endpoint.isCleanSession ∧ b.cacheService.thisNodeId = session.nodeId then
              (g.deleteSession clientId).recordSess (-1)
            else g.recordSess (-1)
      else g

def closeSession (b : Broker) (id : ℕ) (g : Gauges) : Gauges :=
  match b.endpoint id with
  | none => g
  | some endpoint => if b.mayClose endpoint then g.closeLocked b endpoint id else g

def handleClose (v : Verticle) (id : ℕ) (g : Gauges) : Gauges :=
  g.closeSession ((v.withBroker (v.broker.disconnect id)).handleWillPublish id).broker id

end Gauges

/-! ### Runs -/

/-- A node that counts. -/
structure Metered where
  verticle : Verticle
  gauges : Gauges

namespace Metered

inductive Action where
  | accept (connection : MqttConnection) (cleanSession : Bool)
  | close (id : ℕ)
  | publish (id : ℕ) (message : MqttPublishMessage)
  | subscribe (id : ℕ) (subs : List MqttTopicSubscription)
  | unsubscribe (id : ℕ) (topics : List Str)

def Action.op : Action → Verticle.Op
  | .accept connection cleanSession => .accept connection cleanSession
  | .close id => .close id
  | .publish id message => .publish id message
  | .subscribe id subs => .subscribe id subs
  | .unsubscribe id topics => .unsubscribe id topics

def Action.record (v : Verticle) (g : Gauges) : Action → Gauges
  | .accept connection cleanSession =>
      g.openSession (v.broker.addEndpoint connection.client.clientId cleanSession)
        connection.client.clientId v.broker.endpoints.length cleanSession
  | .close id => g.handleClose v id
  | .publish id message => g.handlePublish v id message
  | .subscribe id subs => g.handleSubscribe v id subs
  | .unsubscribe id topics => g.handleUnsubscribe v id topics

def step (m : Metered) (action : Action) : Option Metered :=
  (m.verticle.step action.op).map fun v => ⟨v, action.record m.verticle m.gauges⟩

end Metered

namespace Gauges

/-- The topic counts of the sessions and the session count are exact. -/
structure Counts (b : Broker) (g : Gauges) : Prop where
  topics : ∀ clientId session, b.cacheService.sessionCache.get clientId = some session →
    g.topicCount.get clientId = some (b.routerCount clientId : ℤ)
  sess : g.sessCount = b.wrapperCount

end Gauges

namespace Metered

/-- Each gauge is equal to what it counts. -/
structure Exact (m : Metered) : Prop where
  retain : m.gauges.retainCount = m.verticle.retainCache.size
  counts : m.gauges.Counts m.verticle.broker

/-- The retained store does with the message what the gauge counts. -/
def CountsOne (v : Verticle) (message : MqttPublishMessage) : Prop :=
  message.isRetain = true → (message.payload.length : ℤ) ≤ v.config.mqttRetainMaxPayload →
    if message.payload.isEmpty then v.retainCache.cache.get message.topicName ≠ none
    else v.retainCache.cache.get message.topicName = none ∧
      (v.retainCache.size : ℤ) < v.config.mqttRetainMaxCapacity

/-- The gauges and the stores move alike. -/
def Counted (m : Metered) : Action → Prop
  | .accept connection _ => m.verticle.broker.wrappers.get connection.client.clientId = none
  | .close _ => True
  | .publish id message =>
      ∀ client ∈ m.verticle.client id, checkPublishTopic message.topicName = true →
        canAccess m.verticle.config.isAuthAclAllowNomatch .pub
          (some (m.verticle.checkResult client message.topicName)) = true →
        CountsOne m.verticle message
  | .subscribe _ _ => True
  | .unsubscribe id topics =>
      ∀ client ∈ m.verticle.client id, m.verticle.registered client = true →
        m.verticle.broker.cacheService.sessionCache.get client.clientId ≠ none →
        topics.Nodup ∧ ∀ topic ∈ topics,
          m.verticle.routerCache.routerOf client.clientId topic ≠ none

end Metered

/-! ### The retained messages -/

namespace Gauges

variable {v : Verticle} {b b' : Broker} {g g' : Gauges} {clientId : Str}

lemma retain_iff {message : MqttPublishMessage} (h : g.retainCount = v.retainCache.size)
    (hne : message.topicName ≠ []) :
    (g.handleRetainMessage v message).retainCount =
      (v.handleRetainMessage message).retainCache.size ↔ Metered.CountsOne v message := by
  simp only [handleRetainMessage, Verticle.handleRetainMessage, Metered.CountsOne]
  by_cases hretain : (!message.isRetain) = true
  · rw [if_pos hretain, if_pos hretain]
    exact iff_of_true h fun htrue => by simp [htrue] at hretain
  · have hretain' : message.isRetain = true := by simpa using hretain
    rw [if_neg hretain, if_neg hretain, forall_prop_of_true hretain']
    by_cases hlong : (message.payload.length : ℤ) > v.config.mqttRetainMaxPayload
    · rw [if_pos hlong, if_pos hlong]
      exact iff_of_true h fun hshort => absurd hlong (not_lt.2 hshort)
    · rw [if_neg hlong, if_neg hlong, forall_prop_of_true (not_lt.1 hlong)]
      by_cases hempty : message.payload.isEmpty = true
      · have hsize := @RetainCache.size_delete v.retainCache _ hne
        rw [if_pos hempty, if_pos hempty, if_pos hempty]
        dsimp only [recordRetain]
        split_ifs at hsize with hnone
        · exact iff_of_false (by omega) (not_not.2 hnone)
        · exact iff_of_true (by omega) hnone
      · have hsize := @RetainCache.size_save v.retainCache message.convert2MqttRetainMessage hne
          v.config.mqttRetainMaxCapacity
        rw [if_neg hempty, if_neg hempty, if_neg hempty]
        dsimp only [recordRetain]
        split_ifs at hsize with hnew
        · exact iff_of_true (by omega) hnew
        · exact iff_of_false (by omega) hnew

/-- Only the topic counts and the session count are looked at. -/
lemma Counts.congr (h : g.Counts b) (htopics : g'.topicCount = g.topicCount)
    (hsess : g'.sessCount = g.sessCount) : g'.Counts b :=
  ⟨fun clientId session hget => by rw [htopics]; exact h.topics clientId session hget,
    hsess.trans h.sess⟩

lemma Counts.sameSize (h : g.Counts b) (hsame : b.SameSize b') : g.Counts b' := by
  refine ⟨fun clientId session hget => ?_, by rw [h.sess, hsame.wrapperCount_eq]⟩
  rw [hsame.routerCount_eq clientId]
  exact h.topics clientId session (by rw [← hsame.sessions]; exact hget)

lemma counts_handlePublish (h : g.Counts v.broker) (id : ℕ) (message : MqttPublishMessage) :
    (g.handlePublish v id message).Counts (v.handlePublish id message).broker := by
  refine Counts.sameSize (h.congr ?_ ?_) (Verticle.sameSize_handlePublish v id message)
  · simp only [handlePublish, handleRetainMessage, recordRetain]
    split
    · rfl
    · split_ifs <;> rfl
  · simp only [handlePublish, handleRetainMessage, recordRetain]
    split
    · rfl
    · split_ifs <;> rfl

/-! ### The sessions -/

@[simp] lemma recordSess_topicCount (g : Gauges) (value : ℤ) :
    (g.recordSess value).topicCount = g.topicCount := rfl

/-- The topic counts after `saveSession`. -/
lemma topicCount_saveSession (hv : IdUtil.validateClientId clientId = true) (s : CacheService)
    (cleanSession : Bool) (clientId' : Str) :
    (g.saveSession s clientId cleanSession).topicCount.get clientId' =
      if clientId' = clientId ∧ (cleanSession || !s.isPersistentSession clientId) = true then some 0
      else g.topicCount.get clientId' := by
  simp only [saveSession]
  rw [if_neg (by simp [hv])]
  by_cases hnew : (cleanSession || !s.isPersistentSession clientId) = true
  · rw [if_pos hnew]
    simp only [PlainMap.get_put, hnew, and_true]
  · rw [if_neg hnew, if_neg fun h => hnew h.2]

lemma sessCount_saveSession (g : Gauges) (s : CacheService) (clientId : Str)
    (cleanSession : Bool) : (g.saveSession s clientId cleanSession).sessCount = g.sessCount := by
  simp only [saveSession]
  split_ifs <;> rfl

/-- The topic counts are right for the sessions that are there after the opening. -/
lemma Counts.topics_saveSession (hsound : b.Sound)
    (hv : IdUtil.validateClientId clientId = true) (h : g.Counts b) (id : ℕ)
    (cleanSession : Bool) {clientId' : Str} {session : MqttSession}
    (hget : (b.opened clientId id cleanSession).2.cacheService.sessionCache.get clientId' =
      some session) :
    (g.saveSession b.cacheService clientId cleanSession).topicCount.get clientId' =
      some ((b.opened clientId id cleanSession).2.routerCount clientId' : ℤ) := by
  obtain ⟨hother, hown, -, -⟩ := Broker.opened_spec hsound hv id cleanSession rfl
  rw [topicCount_saveSession hv]
  by_cases heq : clientId' = clientId
  · subst heq
    rw [hown]
    by_cases hnew : (cleanSession || !b.cacheService.isPersistentSession clientId') = true
    · rw [if_pos ⟨rfl, hnew⟩, if_pos hnew]
      rfl
    · -- a session that goes on has had its record and its count before
      have hpers : b.cacheService.isPersistentSession clientId' = true := by
        simp only [Bool.or_eq_true, Bool.not_eq_true', not_or] at hnew
        simpa using hnew.2
      obtain ⟨session', hsession', -⟩ := (CacheService.isPersistentSession_iff hv).1 hpers
      rw [if_neg fun hand => hnew hand.2, if_neg hnew]
      exact h.topics clientId' session' hsession'
  · rw [(hother clientId' heq).1] at hget
    rw [if_neg fun hand => heq hand.1, (hother clientId' heq).2]
    exact h.topics clientId' session hget

/-- The topic counts are right after `openSession`, and the session count iff no wrapper is taken
away. -/
lemma counts_openSession_iff (hsound : b.Sound) (hv : IdUtil.validateClientId clientId = true)
    (h : g.Counts b) (id : ℕ) (cleanSession : Bool) :
    (g.openSession b clientId id cleanSession).Counts (b.openSession clientId id cleanSession) ↔
      b.wrappers.get clientId = none := by
  obtain ⟨-, -, hnone, hcount⟩ := Broker.opened_spec hsound hv id cleanSession rfl
  have htopics := fun (clientId' : Str) (session : MqttSession)
      (hget : (b.opened clientId id cleanSession).2.cacheService.sessionCache.get clientId' =
        some session) =>
    h.topics_saveSession hsound hv id cleanSession hget
  have hsess : (g.saveSession b.cacheService clientId cleanSession).sessCount =
      b.wrapperCount := by
    rw [sessCount_saveSession, h.sess]
  have hopen : b.openSession clientId id cleanSession =
      match b.opened clientId id cleanSession with
      | (some wrapper, b) => b.putWrapper clientId wrapper
      | (none, b) => b := rfl
  rw [hopen]
  unfold openSession
  dsimp only
  rcases hresult : b.opened clientId id cleanSession with ⟨opened, b'⟩
  rw [hresult] at hcount hnone htopics
  dsimp only at hcount hnone htopics ⊢
  have hmove : b.wrappers.get clientId = none ↔ b'.wrapperCount = b.wrapperCount := by
    split_ifs at hcount with hfree
    · exact iff_of_true hfree (by omega)
    · exact iff_of_false hfree (by omega)
  rw [hmove]
  cases opened with
  | none =>
      refine ⟨fun hcounts => ?_, fun heq => ⟨htopics, by rw [hsess, heq]⟩⟩
      have := hcounts.sess
      dsimp only at this
      omega
  | some w =>
      have hput := Broker.wrapperCount_putWrapper hv hnone w
      have hcache : (b'.putWrapper clientId w).cacheService = b'.cacheService := by
        rw [Broker.putWrapper_eq hv]
      constructor
      · intro hcounts
        have := hcounts.sess
        dsimp only [recordSess] at this
        omega
      · intro heq
        refine ⟨fun clientId' session hget => ?_, ?_⟩
        · rw [hcache] at hget
          rw [Broker.routerCount, hcache]
          exact htopics clientId' session hget
        · dsimp only [recordSess]
          omega

lemma counts_closeLocked (hsound : b.Sound) (h : g.Counts b) (endpoint : MqttEndpoint) (id : ℕ) :
    (g.closeLocked b endpoint id).Counts (b.closeLocked endpoint id) := by
  rw [closeLocked, Broker.closeLocked]
  dsimp only
  cases hget : b.getWrapper endpoint.clientIdentifier with
  | none => exact h
  | some w =>
      have hv := Broker.valid_of_getWrapper hget
      have hremove := Broker.wrapperCount_removeWrapper hget
      have hcache : (b.removeWrapper endpoint.clientIdentifier).cacheService = b.cacheService := by
        rw [Broker.removeWrapper_eq hv]
      have hremoved : (g.recordSess (-1)).Counts (b.removeWrapper endpoint.clientIdentifier) := by
        refine ⟨fun clientId session hsession => ?_, ?_⟩
        · rw [hcache] at hsession
          rw [Broker.routerCount, hcache]
          exact h.topics clientId session hsession
        · have := h.sess
          dsimp only [recordSess]
          omega
      dsimp only
      split_ifs with hsame
      · cases b.cacheService.getSession endpoint.clientIdentifier with
        | none => exact hremoved
        | some session =>
            dsimp only
            split_ifs
            · -- the record and the count of the client are gone
              obtain ⟨helse, hdata⟩ := Broker.data_closeClean hsound.routers hv
              refine ⟨fun clientId session' hsession => ?_, hremoved.sess⟩
              have hne : clientId ≠ endpoint.clientIdentifier := by
                rintro rfl
                have hnone := congrArg ClientData.session hdata
                exact absurd (hnone.symm.trans hsession) (by simp)
              have hother := helse.data clientId hne
              have hcount : (g.deleteSession endpoint.clientIdentifier).topicCount.get clientId =
                  g.topicCount.get clientId := PlainMap.get_remove_of_ne _ hne
              have hold : b.cacheService.sessionCache.get clientId = some session' :=
                (congrArg ClientData.session hother).symm.trans hsession
              rw [recordSess_topicCount, hcount, h.topics clientId session' hold]
              refine congrArg (fun n : ℕ => some (n : ℤ))
                (RouterCache.countOf_congr fun topic => ?_)
              have hrouter := congrFun (congrArg ClientData.routers hother) topic
              exact iff_of_eq (congrArg (· = none) hrouter.symm)
            · exact hremoved
      · exact h

lemma counts_closeSession (hsound : b.Sound) (h : g.Counts b) (id : ℕ) :
    (g.closeSession b id).Counts (b.closeSession id) := by
  simp only [closeSession, Broker.closeSession]
  cases b.endpoint id with
  | none => exact h
  | some endpoint =>
      dsimp only
      split_ifs
      · exact counts_closeLocked hsound h endpoint id
      · exact h

/-! ### The subscriptions -/

/-- The count of one client moves with its routers. -/
lemma Counts.recordTopic (h : g.Counts b) {value : ℤ}
    (hsessions : b'.cacheService.sessionCache = b.cacheService.sessionCache)
    (hwrappers : b'.wrappers = b.wrappers)
    (hother : ∀ clientId' ≠ clientId, b'.routerCount clientId' = b.routerCount clientId')
    (hown : (b'.routerCount clientId : ℤ) = b.routerCount clientId + value) :
    (g.recordTopic clientId value).Counts b' := by
  have hcount : b'.wrapperCount = b.wrapperCount := by
    rw [Broker.wrapperCount, Broker.wrapperCount, hwrappers]
  have hsess : (g.recordTopic clientId value).sessCount = g.sessCount := by
    simp only [Gauges.recordTopic]
    split <;> rfl
  refine ⟨fun clientId' session hget => ?_, by rw [hsess, hcount, h.sess]⟩
  rw [hsessions] at hget
  have hold := h.topics clientId' session hget
  simp only [Gauges.recordTopic]
  by_cases heq : clientId' = clientId
  · subst heq
    rw [hold, hown]
    exact PlainMap.get_put_self _ _ _
  · rw [hother clientId' heq, ← hold]
    split
    · rfl
    · exact PlainMap.get_put_of_ne _ heq _

lemma counts_subscribeTopic (hsound : b.Sound) (h : g.Counts b) {topic : Str} (hne : topic ≠ [])
    (clientId : Str) (qos : ℤ) :
    (g.subscribeTopic b clientId topic).Counts (b.subscribeTopic clientId topic qos) := by
  simp only [subscribeTopic, Broker.subscribeTopic]
  cases hget : b.getWrapper clientId with
  | none => exact h
  | some w =>
      have hv := Broker.valid_of_getWrapper hget
      have ht : validateTopic topic = true := by simp [hne]
      have hrouter : b.cacheService.routerCache.get clientId topic =
          b.cacheService.routerCache.routerOf clientId topic := if_neg (by simp [hv, ht])
      have hcount := hsound.routers.countOf_save
        ⟨b.cacheService.thisNodeId, clientId, topic, qos⟩ hv ht
      dsimp only
      rw [hsound.client hget, hrouter]
      cases hold : b.cacheService.routerCache.routerOf clientId topic with
      | none =>
          refine h.recordTopic rfl rfl (fun clientId' hother => ?_) ?_
          · refine (hcount clientId').trans ?_
            rw [if_neg fun hand => hother hand.1, Nat.add_zero]
            rfl
          · have hplus := (hcount clientId).trans (congrArg _ (if_pos ⟨rfl, hold⟩))
            exact_mod_cast hplus
      | some router =>
          refine ⟨fun clientId' session hsession => ?_, h.sess⟩
          have hsame := (hcount clientId').trans (congrArg _
            (if_neg fun hand => by rw [hold] at hand; cases hand.2))
          rw [h.topics clientId' session hsession]
          exact congrArg (fun n : ℕ => some (n : ℤ)) hsame.symm

lemma counts_subscribeAll {client : MqttClient} {results : List MqttAuthority}
    (hresults : ∀ result ∈ results, Verticle.granted v.config.isAuthAclAllowNomatch result = true →
      result.topic ≠ []) (hsound : v.broker.Sound) (h : g.Counts v.broker) :
    (subscribeAll client v results g).Counts (Verticle.subscribeAll client v results).2.broker := by
  induction results generalizing v g with
  | nil => exact h
  | cons result results ih =>
      simp only [subscribeAll, Verticle.subscribeAll]
      by_cases hgranted : Verticle.granted v.config.isAuthAclAllowNomatch result = true
      · rw [if_pos hgranted, if_pos hgranted]
        cases hget : v.broker.getWrapper client.clientId with
        | none => exact h
        | some w =>
            have hne := hresults result mem_cons_self hgranted
            set v' := (v.note (.subscribed client result.topic result.qos)).withBroker
              (v.broker.subscribeTopic client.clientId result.topic result.qos) with hv'
            have hsub : (g.subscribeTopic v.broker client.clientId result.topic).Counts v'.broker :=
              counts_subscribeTopic hsound h hne client.clientId result.qos
            have hsound' : v'.broker.Sound := by
              rw [hv', Verticle.broker_withBroker]
              simp only [Broker.subscribeTopic, hget]
              exact hsound.of_writes (Broker.writes_save _ _ _ _)
            dsimp only
            refine ih ?_ ?_ ?_
            · intro result' hmem
              rw [Verticle.config_handlePublishRetainMessage]
              exact hresults result' (mem_cons_of_mem _ hmem)
            · exact hsound'.of_writes (Verticle.writes_handlePublishRetainMessage v' _ _ _).broker
            · exact hsub.sameSize (Verticle.sameSize_handlePublishRetainMessage v' _ _ _)
      · rw [if_neg hgranted, if_neg hgranted]
        exact ih (fun result' hmem => hresults result' (mem_cons_of_mem _ hmem)) hsound h

lemma counts_handleSubscribe (hfills : ∀ service ∈ v.authService, service.Fills)
    (hsound : v.broker.Sound) (h : g.Counts v.broker) (id : ℕ) (subs : List MqttTopicSubscription) :
    (g.handleSubscribe v id subs).Counts (v.handleSubscribe id subs).2.broker := by
  simp only [handleSubscribe, Verticle.handleSubscribe]
  cases v.client id with
  | none => exact h
  | some client =>
      obtain ⟨hmap, -, hanswers⟩ := Verticle.requests_spec hfills client subs
      refine counts_subscribeAll (fun result hmem hgranted => ?_) hsound h
      rw [← hmap] at hmem
      obtain ⟨request, hrequest, rfl⟩ := mem_map.1 hmem
      have hanswer := hanswers request hrequest
      rw [Verticle.granted_eq hanswer, Verticle.permitted, Bool.and_eq_true] at hgranted
      rw [hanswer.1]
      exact ne_nil_of_check hgranted.1

/-- Every topic of an UNSUBSCRIBE is counted. -/
lemma unsubscribeAll_spec {w : Wrapper} (hget : b.getWrapper clientId = some w)
    (topics : List Str) :
    topics.foldl (fun b topic => b.unsubscribeTopic clientId topic) b = b.withCache
        { b.cacheService with routerCache := topics.foldl (fun s topic =>
          s.delete w.fields.thisClientId topic) b.cacheService.routerCache } ∧
      (unsubscribeAll clientId b topics g).sessCount = g.sessCount ∧
      ∀ clientId', (unsubscribeAll clientId b topics g).topicCount.get clientId' =
        (g.topicCount.get clientId').map fun count : ℤ =>
          if clientId' = w.fields.thisClientId then count - topics.length else count := by
  induction topics generalizing b g with
  | nil => exact ⟨rfl, rfl, fun clientId' => by simp [unsubscribeAll]⟩
  | cons topic topics ih =>
      have hunsub : b.unsubscribeTopic clientId topic =
          b.withCache (b.cacheService.deleteRouter w.fields.thisClientId topic) := by
        simp only [Broker.unsubscribeTopic]
        rw [hget]
      have hrecord : g.unsubscribeTopic b clientId = g.recordTopic w.fields.thisClientId (-1) := by
        simp only [unsubscribeTopic]
        rw [hget]
      obtain ⟨hfold, hsess, htopics⟩ := @ih
        (b.withCache (b.cacheService.deleteRouter w.fields.thisClientId topic))
        (g.recordTopic w.fields.thisClientId (-1)) hget
      simp only [unsubscribeAll]
      rw [foldl_cons, foldl_cons, hunsub, hrecord]
      refine ⟨hfold, hsess.trans ?_, fun clientId' => (htopics clientId').trans ?_⟩
      · simp only [recordTopic]
        split <;> rfl
      · simp only [recordTopic]
        cases hcount : g.topicCount.get w.fields.thisClientId with
        | none =>
            by_cases heq : clientId' = w.fields.thisClientId
            · rw [heq, hcount]
              rfl
            · simp only [heq, if_false]
        | some count =>
            dsimp only
            rw [PlainMap.get_put, length_cons]
            by_cases heq : clientId' = w.fields.thisClientId
            · rw [if_pos heq, heq, hcount]
              simp only [Option.map_some, if_true, Option.some.injEq]
              omega
            · simp only [heq, if_false]

lemma unsubscribeAll_of_none (hget : b.getWrapper clientId = none) (topics : List Str) :
    topics.foldl (fun b topic => b.unsubscribeTopic clientId topic) b = b ∧
      unsubscribeAll clientId b topics g = g := by
  have hunsub : ∀ topic, b.unsubscribeTopic clientId topic = b := fun topic => by
    simp only [Broker.unsubscribeTopic]
    rw [hget]
  have hrecord : g.unsubscribeTopic b clientId = g := by
    simp only [unsubscribeTopic]
    rw [hget]
  induction topics with
  | nil => exact ⟨rfl, rfl⟩
  | cons topic topics ih =>
      simp only [unsubscribeAll]
      rw [foldl_cons, hunsub, hrecord]
      exact ih

/-- The count of the client is right iff each topic takes one of its routers away. -/
lemma counts_handleUnsubscribe_iff (hsound : v.broker.Sound) (h : g.Counts v.broker) (id : ℕ)
    (topics : List Str) :
    (g.handleUnsubscribe v id topics).Counts (v.handleUnsubscribe id topics).broker ↔
      ∀ client ∈ v.client id, v.registered client = true →
        v.broker.cacheService.sessionCache.get client.clientId ≠ none →
        topics.Nodup ∧ ∀ topic ∈ topics, v.routerCache.routerOf client.clientId topic ≠ none := by
  simp only [handleUnsubscribe, Verticle.handleUnsubscribe]
  cases hclient : v.client id with
  | none => exact iff_of_true h fun client hmem => by cases hmem
  | some client =>
      dsimp only
      rw [Verticle.broker_withBroker]
      cases hget : v.broker.getWrapper client.clientId with
      | none =>
          obtain ⟨hbroker, hgauges⟩ := @unsubscribeAll_of_none _ g _ hget topics
          rw [hbroker, hgauges]
          refine iff_of_true h fun client' hmem hreg => ?_
          obtain rfl := Option.some.inj hmem
          simp [Verticle.registered, hget] at hreg
      | some w =>
          have hreg : v.registered client = true := by simp [Verticle.registered, hget]
          obtain ⟨hbroker, hsess, htopics⟩ := @unsubscribeAll_spec _ g _ w hget topics
          rw [hsound.client hget] at hbroker htopics
          obtain ⟨-, hdeletes⟩ := hsound.routers.countOf_deletes client.clientId topics
          rw [hbroker]
          constructor
          · intro hcounts client' hmem _ hstored
            obtain rfl := Option.some.inj hmem
            obtain ⟨session, hsession⟩ := Option.ne_none_iff_exists'.1 hstored
            have hnew := hcounts.topics _ session hsession
            rw [htopics, h.topics _ session hsession, Option.map_some, if_pos rfl,
              Option.some.injEq] at hnew
            refine hdeletes.1 ?_
            have hcount : (v.broker.routerCount client.clientId : ℤ) - topics.length =
              ((topics.foldl (fun s topic => s.delete client.clientId topic)
                v.broker.cacheService.routerCache).countOf client.clientId : ℤ) := hnew
            simp only [Broker.routerCount] at hcount
            omega
          · intro hall
            refine ⟨fun clientId session hsession => ?_, hsess.trans h.sess⟩
            have hold : v.broker.cacheService.sessionCache.get clientId = some session := hsession
            rw [htopics, h.topics clientId session hold, Option.map_some, Option.some.injEq]
            by_cases heq : clientId = client.clientId
            · subst heq
              have hcount := hdeletes.2 (hall client rfl hreg (by simp [hold]))
              rw [if_pos rfl]
              show ((v.broker.routerCount client.clientId : ℤ) - topics.length) =
                ((topics.foldl (fun s topic => s.delete client.clientId topic)
                  v.broker.cacheService.routerCache).countOf client.clientId : ℤ)
              simp only [Broker.routerCount]
              omega
            · rw [if_neg heq]
              exact congrArg Nat.cast (hsound.routers.countOf_deletes_of_ne heq topics).symm

end Gauges

/-! ### One operation -/

namespace Verticle

/-- What a PUBLISH that is let through does to the retained messages. -/
lemma retainCache_handlePublish {v : Verticle} {id : ℕ} {client : MqttClient}
    {message : MqttPublishMessage} (hclient : v.client id = some client)
    (hcheck : checkPublishTopic message.topicName = true)
    (haccess : canAccess v.config.isAuthAclAllowNomatch .pub
      (some (v.checkResult client message.topicName)) = true) :
    (v.handlePublish id message).retainCache = (v.handleRetainMessage message).retainCache := by
  have hretain : ((v.note (.allowed client (.publish message))).handleRetainMessage
      message).retainCache = (v.handleRetainMessage message).retainCache := by
    simp only [handleRetainMessage, apply_ite Verticle.retainCache]
    rfl
  simp only [handlePublish]
  simp only [hclient, hcheck, haccess, Bool.not_true, Bool.false_eq_true, if_false]
  rw [← hretain]
  split_ifs
  · split <;> rfl
  · rfl

lemma retainCache_subscribeAll (client : MqttClient) (results : List MqttAuthority) (v : Verticle) :
    (subscribeAll client v results).2.retainCache = v.retainCache := by
  induction results generalizing v with
  | nil => rfl
  | cons result results ih =>
      simp only [subscribeAll]
      split_ifs
      · split
        · rfl
        · refine (ih _).trans ?_
          simp only [handlePublishRetainMessage]
          split_ifs <;> rfl
      · exact ih v

lemma retainCache_handleSubscribe (v : Verticle) (id : ℕ) (subs : List MqttTopicSubscription) :
    (v.handleSubscribe id subs).2.retainCache = v.retainCache := by
  simp only [handleSubscribe]
  split
  · rfl
  · exact retainCache_subscribeAll _ _ v

lemma retainCache_handleUnsubscribe (v : Verticle) (id : ℕ) (topics : List Str) :
    (v.handleUnsubscribe id topics).retainCache = v.retainCache := by
  simp only [handleUnsubscribe]
  split <;> rfl

lemma retainCache_handleClose (v : Verticle) (id : ℕ) :
    (v.handleClose id).retainCache = v.retainCache := by
  rw [handleClose, handleWillPublish]
  dsimp only
  split
  · rfl
  · split <;> rfl

end Verticle

namespace Gauges

variable {v : Verticle} {g : Gauges}

/-! The operations on sessions and subscriptions leave the retain count. -/

lemma retainCount_recordTopic (clientId : Str) (value : ℤ) :
    (g.recordTopic clientId value).retainCount = g.retainCount := by
  simp only [recordTopic]
  split <;> rfl

lemma retainCount_openSession (b : Broker) (clientId : Str) (id : ℕ) (cleanSession : Bool) :
    (g.openSession b clientId id cleanSession).retainCount = g.retainCount := by
  have hsave : (g.saveSession b.cacheService clientId cleanSession).retainCount =
      g.retainCount := by
    simp only [saveSession]
    split_ifs <;> rfl
  unfold openSession
  dsimp only
  split
  · exact hsave
  · exact hsave

lemma retainCount_closeSession (b : Broker) (id : ℕ) :
    (g.closeSession b id).retainCount = g.retainCount := by
  unfold closeSession closeLocked
  dsimp only
  split
  · rfl
  · split_ifs
    · split
      · rfl
      · split_ifs
        · split
          · rfl
          · split_ifs <;> rfl
        · rfl
    · rfl

lemma retainCount_subscribeAll (client : MqttClient) (results : List MqttAuthority) :
    (subscribeAll client v results g).retainCount = g.retainCount := by
  have hsub : ∀ (b : Broker) (topic : Str) (g : Gauges),
      (g.subscribeTopic b client.clientId topic).retainCount = g.retainCount := by
    intro b topic g
    simp only [subscribeTopic]
    split
    · rfl
    · split
      · rfl
      · exact retainCount_recordTopic _ _
  induction results generalizing v g with
  | nil => rfl
  | cons result results ih =>
      simp only [subscribeAll]
      split_ifs
      · split
        · rfl
        · exact ih.trans (hsub _ _ _)
      · exact ih

lemma retainCount_handleSubscribe (id : ℕ) (subs : List MqttTopicSubscription) :
    (g.handleSubscribe v id subs).retainCount = g.retainCount := by
  simp only [handleSubscribe]
  split
  · rfl
  · exact retainCount_subscribeAll _ _

lemma retainCount_handleUnsubscribe (id : ℕ) (topics : List Str) :
    (g.handleUnsubscribe v id topics).retainCount = g.retainCount := by
  have hloop : ∀ (clientId : Str) (topics : List Str) (b : Broker) (g : Gauges),
      (unsubscribeAll clientId b topics g).retainCount = g.retainCount := by
    intro clientId topics
    induction topics with
    | nil => exact fun b g => rfl
    | cons topic topics ih =>
        intro b g
        simp only [unsubscribeAll, unsubscribeTopic]
        refine (ih _ _).trans ?_
        split
        · rfl
        · exact retainCount_recordTopic _ _
  simp only [handleUnsubscribe]
  split
  · rfl
  · exact hloop _ _ _ _

end Gauges

namespace Metered

variable {m m' : Metered}

/-- What every run keeps. -/
structure Inv (m : Metered) : Prop where
  sound : m.verticle.broker.Sound
  fills : ∀ service ∈ m.verticle.authService, service.Fills

lemma exact_publish_iff (h : m.Exact) (id : ℕ) (message : MqttPublishMessage) :
    Exact ⟨m.verticle.handlePublish id message, m.gauges.handlePublish m.verticle id message⟩ ↔
      m.Counted (.publish id message) := by
  have hcounts := Gauges.counts_handlePublish h.counts id message
  have hsplit : Exact ⟨m.verticle.handlePublish id message,
      m.gauges.handlePublish m.verticle id message⟩ ↔
      (m.gauges.handlePublish m.verticle id message).retainCount =
        (m.verticle.handlePublish id message).retainCache.size :=
    ⟨fun hexact => hexact.retain, fun hretain => ⟨hretain, hcounts⟩⟩
  rw [hsplit]
  cases hclient : m.verticle.client id with
  | none =>
      refine iff_of_true ?_ fun client hmem => by cases hclient.symm.trans hmem
      simp only [Gauges.handlePublish, Verticle.handlePublish, hclient]
      exact h.retain
  | some client =>
      by_cases hcheck : checkPublishTopic message.topicName = true
      · by_cases haccess : canAccess m.verticle.config.isAuthAclAllowNomatch .pub
            (some (m.verticle.checkResult client message.topicName)) = true
        · have hgauges : m.gauges.handlePublish m.verticle id message =
              m.gauges.handleRetainMessage m.verticle message := by
            simp [Gauges.handlePublish, hclient, hcheck, haccess]
          rw [hgauges, Verticle.retainCache_handlePublish hclient hcheck haccess,
            Gauges.retain_iff h.retain (checkPublishTopic_iff.1 hcheck).1]
          constructor
          · rintro hone client' - - -
            exact hone
          · intro hall
            exact hall client hclient hcheck haccess
        · refine iff_of_true ?_ fun client' hmem _ haccess' => ?_
          · simp [Gauges.handlePublish, Verticle.handlePublish, hclient, hcheck, haccess, h.retain]
          · obtain rfl := Option.some.inj (hclient.symm.trans hmem)
            exact absurd haccess' haccess
      · refine iff_of_true ?_ fun client' _ hcheck' => absurd hcheck' hcheck
        simp [Gauges.handlePublish, Verticle.handlePublish, hclient, hcheck, h.retain]

lemma exact_step_iff {action : Action} (hinv : m.Inv) (h : m.Exact)
    (hstep : m.step action = some m') : m'.Exact ↔ m.Counted action := by
  obtain ⟨v', hv', rfl⟩ := Option.map_eq_some_iff.1 hstep
  cases action with
  | accept connection cleanSession =>
      simp only [Action.op, Verticle.step] at hv'
      split_ifs at hv' with hv
      obtain rfl := Option.some.inj hv'
      have hsound : (m.verticle.broker.addEndpoint connection.client.clientId
          cleanSession).Sound := hinv.sound.addEndpoint _ _
      have hadded : m.gauges.Counts (m.verticle.broker.addEndpoint connection.client.clientId
          cleanSession) := h.counts.sameSize (Broker.sameSize_addEndpoint _ _ _)
      have hopened := Gauges.counts_openSession_iff hsound hv hadded
        m.verticle.broker.endpoints.length cleanSession
      constructor
      · intro hexact
        exact hopened.1 (hexact.counts.sameSize (Broker.sameSize_accept _ _).symm)
      · intro hfree
        refine ⟨?_, (hopened.2 hfree).sameSize (Broker.sameSize_accept _ _)⟩
        exact (Gauges.retainCount_openSession _ _ _ _).trans h.retain
  | close id =>
      obtain rfl := Option.some.inj hv'
      refine iff_of_true ⟨?_, ?_⟩ trivial
      · show (Gauges.closeSession _ id m.gauges).retainCount = _
        rw [Gauges.retainCount_closeSession, Verticle.retainCache_handleClose]
        exact h.retain
      · have hlost : (m.verticle.withBroker (m.verticle.broker.disconnect id)).broker.Sound :=
          hinv.sound.disconnect id
        refine Gauges.counts_closeSession (Verticle.sound_handleWillPublish hlost id) ?_ id
        refine Gauges.Counts.sameSize ?_ (Verticle.sameSize_handleWillPublish _ id)
        exact h.counts.sameSize (Broker.sameSize_disconnect m.verticle.broker id)
  | publish id message =>
      obtain rfl := Option.some.inj hv'
      exact exact_publish_iff h id message
  | subscribe id subs =>
      obtain rfl := Option.some.inj hv'
      refine iff_of_true ⟨?_, ?_⟩ trivial
      · show (m.gauges.handleSubscribe m.verticle id subs).retainCount = _
        rw [Gauges.retainCount_handleSubscribe, Verticle.retainCache_handleSubscribe]
        exact h.retain
      · exact Gauges.counts_handleSubscribe hinv.fills hinv.sound h.counts id subs
  | unsubscribe id topics =>
      obtain rfl := Option.some.inj hv'
      have hcounts := Gauges.counts_handleUnsubscribe_iff hinv.sound h.counts id topics
      refine ⟨fun hexact => hcounts.1 hexact.counts, fun hall => ⟨?_, hcounts.2 hall⟩⟩
      show (m.gauges.handleUnsubscribe m.verticle id topics).retainCount = _
      rw [Gauges.retainCount_handleUnsubscribe, Verticle.retainCache_handleUnsubscribe]
      exact h.retain

lemma inv_step {action : Action} (hinv : m.Inv) (hstep : m.step action = some m') : m'.Inv := by
  obtain ⟨v', hv', rfl⟩ := Option.map_eq_some_iff.1 hstep
  refine ⟨Verticle.sound_step hinv.sound hv', ?_⟩
  have hauth : v'.authService = m.verticle.authService := by
    cases action with
    | accept connection cleanSession =>
        simp only [Action.op, Verticle.step] at hv'
        split_ifs at hv'
        obtain rfl := Option.some.inj hv'
        rfl
    | close id =>
        obtain rfl := Option.some.inj hv'
        exact (Verticle.writes_handleWillPublish _ id).authService
    | publish id message =>
        obtain rfl := Option.some.inj hv'
        exact (Verticle.writes_handlePublish _ id message).authService
    | subscribe id subs =>
        obtain rfl := Option.some.inj hv'
        cases hclient : m.verticle.client id with
        | none => simp only [Verticle.handleSubscribe, hclient]
        | some client => exact (Verticle.writes_handleSubscribe hclient subs).authService
    | unsubscribe id topics =>
        obtain rfl := Option.some.inj hv'
        cases hclient : m.verticle.client id with
        | none => simp only [Verticle.handleUnsubscribe, hclient]
        | some client => exact (Verticle.writes_handleUnsubscribe hclient topics).authService
  dsimp only
  rw [hauth]
  exact hinv.fills

/-! ### Results -/

/-- The node and its metrics service have just started: nobody is connected, there are no sessions,
and the retained messages that are stored are counted. -/
structure Started (m : Metered) : Prop where
  broker : m.verticle.broker.Restarted
  sessions : m.verticle.broker.cacheService.sessionCache = ∅
  gauges : m.gauges = ⟨m.verticle.retainCache.size, ∅, 0⟩
  fills : ∀ service ∈ m.verticle.authService, service.Fills

lemma Started.inv (h : m.Started) : m.Inv := ⟨h.broker.sound, h.fills⟩

lemma Started.exact (h : m.Started) : m.Exact := by
  have hcount : m.verticle.broker.wrapperCount = 0 := by
    rw [Broker.wrapperCount, h.broker.wrappers]
    rfl
  refine ⟨by rw [h.gauges], fun clientId session hget => ?_, ?_⟩
  · rw [h.sessions, PlainMap.get_empty] at hget
    cases hget
  · rw [h.gauges, hcount]
    rfl

/-- **The gauges of a node.**  In a run that begins at the start of the node, all gauges are equal
to what they count in every state iff no client connects that has a wrapper already, each
UNSUBSCRIBE of a live session names different topics that are stored, and each retained message that
reaches the store is stored under a new topic or deletes one that is stored. -/
theorem gauges_exact_iff {actions : List Action} (hstart : m.Started)
    (hrun : run step m actions = some m') :
    (∀ before u, before <+: actions → run step m before = some u → u.Exact) ↔
      AllSteps step Counted m actions :=
  always_iff_allSteps (fun _ _ _ hinv hstep => inv_step hinv hstep)
    (fun _ _ _ hinv hexact hstep => exact_step_iff hinv hexact hstep) hstart.inv hstart.exact hrun

/-- A node without an auth service that may retain messages. -/
def sampleNode : Metered := ⟨Verticle.initial ⟨true, false, 4, 4⟩ none, ⟨0, ∅, 0⟩⟩

lemma started_sampleNode : sampleNode.Started where
  broker := Broker.restarted_initial _ _
  sessions := rfl
  gauges := rfl
  fills := fun service hservice => by cases hservice

def sampleConnection : MqttConnection := ⟨LocalAuthService.sampleClient, none⟩

/-- A client subscribes to two topics, retains a message, gives up a topic and leaves. -/
def steadyActions : List Action :=
  [.accept sampleConnection false, .subscribe 0 [⟨['t'], .atMostOnce⟩, ⟨['u'], .atLeastOnce⟩],
    .publish 0 (Verticle.retainedPublish 'r' [1]), .unsubscribe 0 [['t']], .close 0]

theorem gauges_exact_iff_steady :
    (∀ before u, before <+: steadyActions → run step sampleNode before = some u → u.Exact) ↔
      AllSteps step Counted sampleNode steadyActions :=
  gauges_exact_iff started_sampleNode (Option.some_get (by decide)).symm

/-- A client connects, and connects again. -/
def takeoverActions : List Action := [.accept sampleConnection true, .accept sampleConnection true]

/-- The second CONNECT counts, and there is one wrapper. -/
theorem not_gauges_exact :
    ¬∀ (m m' : Metered) (actions : List Action), m.Started → run step m actions = some m' →
      m'.Exact := by
  intro h
  have hexact := h sampleNode _ takeoverActions started_sampleNode
    (Option.some_get (by decide)).symm
  exact absurd hexact.counts.sess (by decide)

end Metered

end Stuart
