/-
Where the await messages of a broker come from.

An await message is stored in its transient wrapper or in the await cache.  Only
`receiveQos2Message` stores one, and only `releaseQos2Message` takes one out and returns it; every
other operation keeps or drops what is there.  So a property of all await messages is kept by all
operations, if the received ones have it.
-/
import Stuart.Services.Lifecycle

namespace Stuart

open List Lib

variable {P : MqttAwaitMessage → Prop}

/-- All await messages that the wrapper itself holds have the property. -/
def Wrapper.AwaitsFrom (P : MqttAwaitMessage → Prop) : Wrapper → Prop
  | .transient _ _ _ awaits => ∀ id a, awaits.get id = some a → P a
  | .persistent _ => True

/-- All stored await messages have the property. -/
def CacheService.AwaitsFrom (P : MqttAwaitMessage → Prop) (s : CacheService) : Prop :=
  ∀ clientId awaits, s.awaitCache.get clientId = some awaits →
    ∀ id a, awaits.get id = some a → P a

namespace CacheService

variable {s : CacheService}

lemma AwaitsFrom.congr {s' : CacheService} (h : s.AwaitsFrom P)
    (heq : s'.awaitCache = s.awaitCache) : s'.AwaitsFrom P := by
  simp only [AwaitsFrom]
  rw [heq]
  exact h

lemma AwaitsFrom.saveSession (h : s.AwaitsFrom P) (session : MqttSession) :
    (s.saveSession session).AwaitsFrom P := by
  refine h.congr ?_
  simp only [CacheService.saveSession]
  split_ifs <;> rfl

lemma AwaitsFrom.deleteSession (h : s.AwaitsFrom P) (clientId : Str) :
    (s.deleteSession clientId).AwaitsFrom P := by
  refine h.congr ?_
  simp only [CacheService.deleteSession]
  split_ifs <;> rfl

lemma AwaitsFrom.enqueue (h : s.AwaitsFrom P) (message : MqttMessage) (clientId : Str)
    (qos : MqttQoS) : (s.enqueue message clientId qos).2.AwaitsFrom P := by
  refine h.congr ?_
  simp only [CacheService.enqueue]
  split_ifs
  · rfl
  · rfl
  · split <;> rfl

/-- A map is stored whose messages have the property. -/
lemma AwaitsFrom.put (h : s.AwaitsFrom P) (clientId : Str)
    {awaits : BoundedIgniteMap ℤ MqttAwaitMessage} (hnew : ∀ id a, awaits.get id = some a → P a) :
    AwaitsFrom P { s with awaitCache := s.awaitCache.put clientId awaits } := by
  intro c m hm
  rcases PlainMap.eq_or_get_of_get_put _ hm with ⟨-, rfl⟩ | hm
  · exact hnew
  · exact h c m hm

lemma AwaitsFrom.closeAwait (h : s.AwaitsFrom P) (clientId : Str) :
    (s.closeAwait clientId).AwaitsFrom P := fun c m hm =>
  h c m (PlainMap.get_of_get_remove _ hm)

lemma AwaitsFrom.openAwait (h : s.AwaitsFrom P) (clientId : Str) :
    (s.openAwait clientId).2.AwaitsFrom P := by
  refine h.put clientId fun id a ha => ?_
  cases hget : s.awaitCache.get clientId with
  | none =>
      rw [hget] at ha
      exact absurd ha (by simp [BoundedIgniteMap.create, BoundedIgniteMap.get,
        BoundedIgniteMapUnsafe.get, BoundedIgniteMapUnsafe.create])
  | some stored =>
      rw [hget] at ha
      exact h clientId stored hget id a ha

lemma AwaitsFrom.destroyPersistentSession (h : s.AwaitsFrom P) (clientId : Str) :
    (s.destroyPersistentSession clientId).AwaitsFrom P := by
  have hrouters : (s.deleteRouters clientId).AwaitsFrom P := h.congr rfl
  exact (hrouters.closeAwait clientId).congr rfl

end CacheService

namespace Broker

variable {b : Broker} {clientId : Str}

/-- All await messages of the broker have the property. -/
structure AwaitsFrom (P : MqttAwaitMessage → Prop) (b : Broker) : Prop where
  wrappers : ∀ clientId w, b.wrappers.get clientId = some w → w.AwaitsFrom P
  stored : b.cacheService.AwaitsFrom P

lemma AwaitsFrom.imp {Q : MqttAwaitMessage → Prop} (h : b.AwaitsFrom P) (hpq : ∀ a, P a → Q a) :
    b.AwaitsFrom Q := by
  refine ⟨fun c w hw => ?_, fun c m hm id a ha => hpq a (h.stored c m hm id a ha)⟩
  have hfrom := h.wrappers c w hw
  cases w with
  | transient => exact fun id a ha => hpq a (hfrom id a ha)
  | persistent => trivial

lemma AwaitsFrom.getWrapper (h : b.AwaitsFrom P) {w : Wrapper}
    (hget : b.getWrapper clientId = some w) : w.AwaitsFrom P := by
  have hv := valid_of_getWrapper hget
  rw [getWrapper_eq hv] at hget
  exact h.wrappers clientId w hget

lemma AwaitsFrom.congr {b' : Broker} (h : b.AwaitsFrom P) (hw : b'.wrappers = b.wrappers)
    (hc : b'.cacheService = b.cacheService) : b'.AwaitsFrom P :=
  ⟨by rw [hw]; exact h.wrappers, by rw [hc]; exact h.stored⟩

lemma AwaitsFrom.withCache (h : b.AwaitsFrom P) {s : CacheService} (hs : s.AwaitsFrom P) :
    (b.withCache s).AwaitsFrom P := ⟨h.wrappers, hs⟩

lemma AwaitsFrom.setEndpoint (h : b.AwaitsFrom P) (id : ℕ) (endpoint : MqttEndpoint) :
    (b.setEndpoint id endpoint).AwaitsFrom P := h.congr rfl rfl

lemma AwaitsFrom.disconnect (h : b.AwaitsFrom P) (id : ℕ) : (b.disconnect id).AwaitsFrom P :=
  h.congr (disconnect_wrappers id) (disconnect_cacheService id)

lemma AwaitsFrom.putWrapper (h : b.AwaitsFrom P) {w : Wrapper} (hw : w.AwaitsFrom P) :
    (b.putWrapper clientId w).AwaitsFrom P := by
  simp only [Broker.putWrapper]
  split_ifs
  · exact h
  · refine ⟨fun c w' hw' => ?_, h.stored⟩
    rcases PlainMap.eq_or_get_of_get_put _ hw' with ⟨-, rfl⟩ | hw'
    · exact hw
    · exact h.wrappers c w' hw'

lemma AwaitsFrom.removeWrapper (h : b.AwaitsFrom P) (clientId : Str) :
    (b.removeWrapper clientId).AwaitsFrom P := by
  simp only [Broker.removeWrapper]
  split_ifs
  · exact h
  · exact ⟨fun c w hw => h.wrappers c w (PlainMap.get_of_get_remove _ hw), h.stored⟩

/-! ### Methods of a wrapper -/

/-- A method of a wrapper leaves its await messages and the stored ones as they are. -/
lemma AwaitsFrom.onWrapper (h : b.AwaitsFrom P) {w : Wrapper} (hw : w.AwaitsFrom P)
    {f : ∀ {kind}, SessionWrapper kind → SessionWrapper kind} {w' : Wrapper} {b' : Broker}
    (hon : b.onWrapper f w = some (w', b')) : w'.AwaitsFrom P ∧ b'.AwaitsFrom P := by
  cases w with
  | transient fields queue inflights awaits =>
      simp only [Broker.onWrapper, onTransient] at hon
      cases hend : b.endpoint fields.endpoint with
      | none => simp [hend] at hon
      | some endpoint =>
          simp only [hend, Option.some.injEq, Prod.mk.injEq] at hon
          obtain ⟨rfl, rfl⟩ := hon
          exact ⟨hw, h.setEndpoint _ _⟩
  | persistent fields =>
      simp only [Broker.onWrapper, onPersistent] at hon
      split at hon
      · simp only [Option.some.injEq, Prod.mk.injEq] at hon
        obtain ⟨rfl, rfl⟩ := hon
        exact ⟨trivial, (h.setEndpoint _ _).withCache (h.stored.congr rfl)⟩
      · exact absurd hon (by simp)

lemma AwaitsFrom.onRegistered (h : b.AwaitsFrom P) (clientId : Str)
    (f : ∀ {kind}, SessionWrapper kind → SessionWrapper kind) :
    (b.onRegistered clientId f).AwaitsFrom P := by
  simp only [Broker.onRegistered]
  cases hget : b.getWrapper clientId with
  | none => exact h
  | some w =>
      dsimp only
      split
      · rename_i w' b' hon
        obtain ⟨hw', hb'⟩ := h.onWrapper (h.getWrapper hget) hon
        exact hb'.putWrapper hw'
      · exact h

lemma AwaitsFrom.handleLocalPublishMessage (h : b.AwaitsFrom P) (clientId : Str)
    (message : MqttMessage) (qos : MqttQoS) :
    (b.handleLocalPublishMessage clientId message qos).AwaitsFrom P := by
  simp only [Broker.handleLocalPublishMessage]
  split
  · exact h.onRegistered clientId _
  · split_ifs
    · exact (h.withCache (h.stored.enqueue message clientId qos)).onRegistered clientId _
    · exact h

lemma AwaitsFrom.subscribeTopic (h : b.AwaitsFrom P) (clientId topic : Str) (qos : ℤ) :
    (b.subscribeTopic clientId topic qos).AwaitsFrom P := by
  simp only [Broker.subscribeTopic]
  split
  · exact h
  · exact h.withCache (h.stored.congr rfl)

lemma AwaitsFrom.unsubscribeTopic (h : b.AwaitsFrom P) (clientId topic : Str) :
    (b.unsubscribeTopic clientId topic).AwaitsFrom P := by
  simp only [Broker.unsubscribeTopic]
  split
  · exact h
  · exact h.withCache (h.stored.congr rfl)

/-! ### Connecting and closing -/

lemma AwaitsFrom.closeEndpoint (h : b.AwaitsFrom P) (w : Wrapper) :
    (b.closeEndpoint w).AwaitsFrom P :=
  h.congr (closeEndpoint_wrappers w) (closeEndpoint_cacheService w)

lemma AwaitsFrom.closeWrapper (h : b.AwaitsFrom P) (w : Wrapper) :
    (b.closeWrapper w).AwaitsFrom P := by
  have hclose := h.closeEndpoint w
  simp only [Broker.closeWrapper]
  cases w with
  | transient fields => exact hclose.withCache (hclose.stored.congr rfl)
  | persistent fields => exact hclose.withCache (hclose.stored.destroyPersistentSession _)

lemma AwaitsFrom.teardown (h : b.AwaitsFrom P) (clientId : Str) (cleanSession isPersistent : Bool)
    (old : Option Wrapper) : (b.teardown clientId cleanSession isPersistent old).AwaitsFrom P := by
  cases old with
  | none =>
      unfold Broker.teardown
      dsimp only
      split_ifs
      · exact h.withCache (h.stored.destroyPersistentSession clientId)
      · exact h.withCache (h.stored.congr rfl)
      · exact h
  | some w =>
      unfold Broker.teardown
      dsimp only
      split_ifs
      · exact h.closeWrapper w
      · exact h.closeEndpoint w
      · exact h.closeWrapper w

lemma AwaitsFrom.newPersistent (h : b.AwaitsFrom P) (clientId : Str) (id : ℕ) :
    (b.newPersistent clientId id).2.AwaitsFrom P :=
  h.withCache ((h.stored.openAwait clientId).congr rfl)

lemma AwaitsFrom.buildWrapper (h : b.AwaitsFrom P) (clientId : Str) (id : ℕ)
    (cleanSession isPersistent : Bool) {old : Option Wrapper}
    (hold : ∀ w, old = some w → w.AwaitsFrom P) :
    (b.buildWrapper clientId id cleanSession isPersistent old).1.AwaitsFrom P ∧
      (b.buildWrapper clientId id cleanSession isPersistent old).2.AwaitsFrom P := by
  simp only [Broker.buildWrapper]
  split_ifs with hclean hpers
  · refine ⟨?_, h⟩
    simp [newTransient, Wrapper.AwaitsFrom]
  · cases old with
    | none => exact ⟨trivial, h.newPersistent clientId id⟩
    | some w =>
        refine ⟨?_, h⟩
        have hw := hold w rfl
        cases w with
        | transient => exact hw
        | persistent => trivial
  · cases old <;> exact ⟨trivial, h.newPersistent clientId id⟩

lemma AwaitsFrom.openWrapper (h : b.AwaitsFrom P) {w : Wrapper} (hw : w.AwaitsFrom P) :
    (∀ w', (b.openWrapper w).1 = some w' → w'.AwaitsFrom P) ∧ (b.openWrapper w).2.AwaitsFrom P := by
  cases w with
  | transient => exact ⟨fun w' hw' => Option.some.inj hw' ▸ hw, h⟩
  | persistent fields =>
      have hinit : (b.withCache (b.cacheService.initPersistentSession
          fields.thisClientId)).AwaitsFrom P := h.withCache (h.stored.congr rfl)
      unfold Broker.openWrapper
      dsimp only
      split
      · rename_i w' b' hon
        simp only [onPersistent] at hon
        split at hon
        · simp only [Option.some.injEq, Prod.mk.injEq] at hon
          obtain ⟨rfl, rfl⟩ := hon
          exact ⟨fun w' hw' => Option.some.inj hw' ▸ trivial,
            (hinit.setEndpoint _ _).withCache (hinit.stored.congr rfl)⟩
        · exact absurd hon (by simp)
      · exact ⟨fun w' hw' => absurd hw' (by simp), hinit⟩

lemma AwaitsFrom.openSession (h : b.AwaitsFrom P) (clientId : Str) (id : ℕ) (cleanSession : Bool) :
    (b.openSession clientId id cleanSession).AwaitsFrom P := by
  have hold : ∀ w, b.getWrapper clientId = some w → w.AwaitsFrom P := fun w hw => h.getWrapper hw
  have hremove := h.removeWrapper clientId
  have htake : (b.takeWrapper clientId cleanSession).2.AwaitsFrom P :=
    hremove.withCache (hremove.stored.saveSession _)
  have htear := htake.teardown clientId cleanSession (b.cacheService.isPersistentSession clientId)
    (b.takeWrapper clientId cleanSession).1
  obtain ⟨hw, hb⟩ := htear.buildWrapper clientId id cleanSession
    (b.cacheService.isPersistentSession clientId) hold
  obtain ⟨hopen, hb'⟩ := hb.openWrapper hw
  unfold Broker.openSession
  dsimp only
  split
  · rename_i w b' heq
    rw [show b.getWrapper clientId = (b.takeWrapper clientId cleanSession).1 from rfl] at hopen hb'
    rw [heq] at hopen hb'
    exact AwaitsFrom.putWrapper hb' (hopen w rfl)
  · rename_i b' heq
    rw [show b.getWrapper clientId = (b.takeWrapper clientId cleanSession).1 from rfl] at hb'
    rw [heq] at hb'
    exact hb'

lemma AwaitsFrom.accept (h : b.AwaitsFrom P) (id : ℕ) : (b.accept id).AwaitsFrom P := by
  simp only [Broker.accept]
  split
  · exact h
  · split
    · exact h.setEndpoint _ _
    · exact h

lemma AwaitsFrom.handleAccept (h : b.AwaitsFrom P) (clientId : Str) (cleanSession : Bool) :
    (b.handleAccept clientId cleanSession).2.AwaitsFrom P := by
  have hadd : (b.addEndpoint clientId cleanSession).AwaitsFrom P := h.congr rfl rfl
  exact (hadd.openSession clientId _ cleanSession).accept _

lemma AwaitsFrom.closeSession (h : b.AwaitsFrom P) (id : ℕ) : (b.closeSession id).AwaitsFrom P := by
  simp only [Broker.closeSession]
  split
  · exact h
  · rename_i endpoint _
    split_ifs
    · have hremove := h.removeWrapper endpoint.clientIdentifier
      rw [closeLocked]
      dsimp only
      split
      · exact h
      · split_ifs
        · split
          · exact hremove
          · split_ifs
            · refine hremove.withCache (CacheService.AwaitsFrom.deleteSession ?_ _)
              exact h.stored.congr rfl
            · exact hremove
        · exact h
    · exact h

/-! ### Receiving and releasing -/

lemma AwaitsFrom.receiveQos2Message (h : b.AwaitsFrom P) (clientId : Str) {a : MqttAwaitMessage}
    (ha : P a) : (b.receiveQos2Message clientId a).AwaitsFrom P := by
  simp only [Broker.receiveQos2Message]
  split
  · exact h
  · rename_i fields queue inflights awaits hget
    have hawaits : ∀ id a, awaits.get id = some a → P a := h.getWrapper hget
    refine h.putWrapper fun id a' ha' => ?_
    rcases ExpiringMap.eq_or_get_of_get_putExt ha' with rfl | ha'
    · exact ha
    · exact hawaits id a' ha'
  · rename_i fields hget
    split
    · exact h
    · rename_i awaits hawaits
      refine h.withCache (h.stored.put _ fun id a' ha' => ?_)
      have hold := h.stored _ awaits hawaits
      -- the map may be full, then the message is not stored
      simp only [BoundedIgniteMap.put] at ha'
      split_ifs at ha'
      · rcases PlainMap.eq_or_get_of_get_put _ ha' with ⟨-, rfl⟩ | ha'
        · exact ha
        · exact hold id a' ha'
      · rcases PlainMap.eq_or_get_of_get_put _ ha' with ⟨-, rfl⟩ | ha'
        · exact ha
        · exact hold id a' ha'
      · exact hold id a' ha'

lemma AwaitsFrom.releaseQos2Message (h : b.AwaitsFrom P) (clientId : Str) (messageId : ℤ) :
    (∀ a, (b.releaseQos2Message clientId messageId).1 = some a → P a) ∧
      (b.releaseQos2Message clientId messageId).2.AwaitsFrom P := by
  simp only [Broker.releaseQos2Message]
  split
  · exact ⟨by simp, h⟩
  · rename_i fields queue inflights awaits hget
    have hawaits : ∀ id a, awaits.get id = some a → P a := h.getWrapper hget
    refine ⟨fun a ha => hawaits messageId a ha, h.putWrapper fun id a ha => ?_⟩
    exact hawaits id a (PlainMap.get_of_get_remove _ ha)
  · rename_i fields hget
    split
    · exact ⟨by simp, h⟩
    · rename_i awaits hawaits
      have hold := h.stored _ awaits hawaits
      refine ⟨fun a ha => ?_, h.withCache (h.stored.put _ fun id a ha => ?_)⟩
      · simp only [BoundedIgniteMap.remove] at ha
        split_ifs at ha
        exact hold messageId a ha
      · simp only [BoundedIgniteMap.remove] at ha
        split_ifs at ha
        · exact hold id a (PlainMap.get_of_get_remove _ ha)
        · exact hold id a (PlainMap.get_of_get_remove _ ha)

end Broker

end Stuart
