/-
The operations on the sessions of a broker, and what they leave to other clients.

Besides the operations of the lifecycle these are the methods that the packets of a client and the
retry timers call.  Each works on the data of one client, on its wrapper and on its endpoint.  A
registered wrapper has the endpoint and the stores that its methods ask for, so in a sound state no
operation fails halfway.
-/
import Stuart.Services.Lifecycle
import Stuart.Verticles.Deliveries

namespace Stuart

open List Lib

namespace Broker

variable {b b' : Broker} {clientId : Str}

lemma Inv.sameElse_subscribeTopic (h : b.Inv) (clientId topic : Str) (qos : ℤ) :
    SameElse b (b.subscribeTopic clientId topic qos) clientId := by
  simp only [Broker.subscribeTopic]
  cases hget : b.getWrapper clientId with
  | none => exact .refl b clientId
  | some w =>
      dsimp only
      rw [(h.live_of_getWrapper hget).client]
      exact SameElse.withCache (CacheService.sameElse_saveRouter h.routers topic qos)

lemma Inv.sameElse_unsubscribeTopic (h : b.Inv) (clientId topic : Str) :
    SameElse b (b.unsubscribeTopic clientId topic) clientId := by
  simp only [Broker.unsubscribeTopic]
  cases hget : b.getWrapper clientId with
  | none => exact .refl b clientId
  | some w =>
      dsimp only
      rw [(h.live_of_getWrapper hget).client]
      exact SameElse.withCache (CacheService.sameElse_deleteRouter h.routers topic)

section OnRegistered

variable {f : ∀ {kind}, SessionWrapper kind → SessionWrapper kind}

/-- A method of a transient wrapper, run on the registered one. -/
lemma Inv.onRegistered_of_transient (h : b.Inv) {fields : WrapperFields}
    {queue : BoundedQueue MqttMessage} {inflights : PlainMap ℤ MqttMessage}
    {awaits : PlainMap ℤ MqttAwaitMessage}
    (hget : b.getWrapper clientId = some (.transient fields queue inflights awaits)) :
    ∃ endpoint, b.endpoint fields.endpoint = some endpoint ∧
      let w : SessionWrapper .transient := f ⟨b.cacheService.config, clientId, endpoint, queue,
        inflights, fields.timeouts, fields.ledger⟩
      b.onRegistered clientId f = (b.setEndpoint fields.endpoint w.endpoint).putWrapper clientId
        (.transient { fields with timeouts := w.timeouts, ledger := w.ledger } w.queue w.inflights
          awaits) := by
  have hl := h.live_of_getWrapper hget
  have hclient : fields.thisClientId = clientId := hl.client
  obtain ⟨endpoint, hend, -⟩ := Option.map_eq_some_iff.1 hl.owner
  have hend' : b.endpoint fields.endpoint = some endpoint := hend
  refine ⟨endpoint, hend', ?_⟩
  simp only [Broker.onRegistered, hget, onWrapper, onTransient, hend', hclient]

/-- A method of a persistent wrapper, run on the registered one and on what is stored. -/
lemma Inv.onRegistered_of_persistent (h : b.Inv) {fields : WrapperFields}
    (hget : b.getWrapper clientId = some (.persistent fields)) :
    ∃ endpoint queue inflights, b.endpoint fields.endpoint = some endpoint ∧
      (b.cacheService.data clientId).queue = some queue ∧
      (b.cacheService.data clientId).inflights = some inflights ∧ queue.Bounded ∧
      let w : SessionWrapper .persistent := f ⟨b.cacheService.config, clientId, endpoint, queue,
        inflights, fields.timeouts, fields.ledger⟩
      b.onRegistered clientId f = ((b.setEndpoint fields.endpoint w.endpoint).withCache
          (b.cacheService.storeSession clientId w.queue w.inflights)).putWrapper clientId
        (.persistent { fields with timeouts := w.timeouts, ledger := w.ledger }) := by
  have hl := h.live_of_getWrapper hget
  have hclient : fields.thisClientId = clientId := hl.client
  obtain ⟨endpoint, hend, -⟩ := Option.map_eq_some_iff.1 hl.owner
  have hend' : b.endpoint fields.endpoint = some endpoint := hend
  obtain ⟨-, ⟨inflights, hi⟩, queue, hq, -, hb⟩ := hl.opened rfl
  have hi' : b.cacheService.inflightCache.get clientId = some inflights := hi
  have hq' : b.cacheService.queueCache.get clientId = some queue := hq
  refine ⟨endpoint, queue, inflights, hend', hq, hi, hb, ?_⟩
  simp only [Broker.onRegistered, hget, onWrapper, onPersistent, hend', hclient, hi', hq']

lemma Inv.sameElse_onRegistered (h : b.Inv) (clientId : Str)
    (hf : ∀ {kind} (w : SessionWrapper kind), SessionWrapper.Kept w (f w)) :
    SameElse b (b.onRegistered clientId f) clientId := by
  cases hget : b.getWrapper clientId with
  | none =>
      simp only [Broker.onRegistered, hget]
      exact .refl b clientId
  | some w =>
      have hv := valid_of_getWrapper hget
      cases w with
      | transient fields queue inflights awaits =>
          obtain ⟨endpoint, hend, hon⟩ := h.onRegistered_of_transient (f := f) hget
          have hlink := (hf (⟨b.cacheService.config, clientId, endpoint, queue, inflights,
            fields.timeouts, fields.ledger⟩ : SessionWrapper .transient)).link
          simp only [MqttEndpoint.link, Prod.mk.injEq] at hlink
          rw [hon]
          exact (sameElse_setEndpoint _ hend hlink.2.1 hlink.2.2.1 clientId).trans
            (sameElse_putWrapper hv _)
      | persistent fields =>
          obtain ⟨endpoint, queue, inflights, hend, hq, hi, -, hon⟩ :=
            h.onRegistered_of_persistent (f := f) hget
          have hlink := (hf (⟨b.cacheService.config, clientId, endpoint, queue, inflights,
            fields.timeouts, fields.ledger⟩ : SessionWrapper .persistent)).link
          simp only [MqttEndpoint.link, Prod.mk.injEq] at hlink
          rw [hon]
          refine ((sameElse_setEndpoint _ hend hlink.2.1 hlink.2.2.1 clientId).trans
            (SameElse.withCache ?_)).trans (sameElse_putWrapper hv _)
          exact ⟨rfl, rfl,
            fun c hne => (CacheService.data_storeSession _ _ c).trans (if_neg hne), id⟩

/-- A method of a wrapper leaves the endpoints of other clients. -/
lemma Inv.endpoint_onRegistered (h : b.Inv) {id : ℕ} {c : Str} {cleanSession : Bool}
    (howner : b.owner id = some (c, cleanSession)) (hne : c ≠ clientId) :
    (b.onRegistered clientId f).endpoint id = b.endpoint id := by
  have hother : ∀ w, b.getWrapper clientId = some w → id ≠ w.endpoint := by
    rintro w hget rfl
    have hl := h.live_of_getWrapper hget
    exact hne (Prod.mk.inj (Option.some.inj (howner.symm.trans hl.owner))).1
  cases hget : b.getWrapper clientId with
  | none => simp only [Broker.onRegistered, hget]
  | some w =>
      have hv := valid_of_getWrapper hget
      have hid := hother w hget
      cases w with
      | transient fields queue inflights awaits =>
          obtain ⟨endpoint, hend, hon⟩ := h.onRegistered_of_transient (f := f) hget
          rw [hon, putWrapper_eq hv]
          exact (endpoint_setEndpoint hend id).trans (if_neg hid)
      | persistent fields =>
          obtain ⟨endpoint, queue, inflights, hend, -, -, -, hon⟩ :=
            h.onRegistered_of_persistent (f := f) hget
          rw [hon, putWrapper_eq hv]
          exact (endpoint_setEndpoint hend id).trans (if_neg hid)

end OnRegistered

lemma Inv.sameElse_handleLocalPublishMessage (h : b.Inv) (clientId : Str) (message : MqttMessage)
    (qos : MqttQoS) : SameElse b (b.handleLocalPublishMessage clientId message qos) clientId := by
  simp only [Broker.handleLocalPublishMessage]
  cases hget : b.getWrapper clientId with
  | some w =>
      exact h.sameElse_onRegistered clientId fun w =>
        SessionWrapper.kept_publishMessage w message qos
  | none =>
      dsimp only
      split_ifs with hpers
      · exact (SameElse.withCache (CacheService.sameElse_enqueue message qos)).trans
          ((h.enqueue hget hpers message qos).sameElse_onRegistered clientId
            SessionWrapper.kept_publishCachedMessage)
      · exact .refl b clientId

lemma Inv.sameElse_receiveQos2Message (h : b.Inv) (clientId : Str)
    (awaitMessage : MqttAwaitMessage) :
    SameElse b (b.receiveQos2Message clientId awaitMessage) clientId := by
  simp only [Broker.receiveQos2Message]
  cases hget : b.getWrapper clientId with
  | none => exact .refl b clientId
  | some w =>
      have hl := h.live_of_getWrapper hget
      cases w with
      | transient fields queue inflights awaits => exact sameElse_putWrapper hl.valid _
      | persistent fields =>
          have hclient : fields.thisClientId = clientId := hl.client
          dsimp only
          rw [hclient]
          cases b.cacheService.awaitCache.get clientId with
          | none => exact .refl b clientId
          | some awaits => exact SameElse.withCache (CacheService.sameElse_putAwaits _ _ _)

/-- The end of a connection is an operation of its client. -/
lemma Inv.sameElse_close (h : b.Inv) {id : ℕ} {endpoint : MqttEndpoint}
    (hend : b.endpoint id = some endpoint) :
    SameElse b (b.step (.close id)) endpoint.clientIdentifier := by
  by_cases hheld : ∃ w, b.getWrapper endpoint.clientIdentifier = some w ∧ w.endpoint = id
  · obtain ⟨w, hget, rfl⟩ := hheld
    exact (h.close_current hget).1
  · obtain ⟨hcache, hwrappers⟩ := close_superseded hend fun w hget hid => hheld ⟨w, hget, hid⟩
    refine ⟨?_, fun c _ => by rw [hwrappers], owner_close id⟩
    rw [hcache]
    exact .refl _ _

lemma step_close_of_none {id : ℕ} (hend : b.endpoint id = none) : b.step (.close id) = b := by
  have hdis : b.disconnect id = b := by simp only [Broker.disconnect, hend]
  simp only [Broker.step, hdis, Broker.closeSession, hend]

/-! ### The release of an await message -/

/-- Other await messages are stored for a persistent wrapper. -/
lemma Inv.putAwaits (h : b.Inv) {w : Wrapper} (hget : b.getWrapper clientId = some w)
    (hkind : w.kind = .persistent) (awaits : BoundedIgniteMap ℤ MqttAwaitMessage) :
    (b.withCache { b.cacheService with
      awaitCache := b.cacheService.awaitCache.put clientId awaits }).Inv := by
  have hl := h.live_of_getWrapper hget
  have hf := @SameElse.withCache b clientId _
    (CacheService.sameElse_putAwaits b.cacheService clientId awaits)
  rw [getWrapper_eq hl.valid] at hget
  refine h.frame hf ⟨fun hnot => ?_, (h.own clientId).keyed, fun w' hw' => ?_⟩
  · exact absurd ⟨_, hl.session, by simp [hkind]⟩ hnot
  · obtain rfl := Option.some.inj (hget.symm.trans hw')
    refine hl.replace hf rfl rfl rfl rfl fun _ => ?_
    obtain ⟨-, hi, hq⟩ := hl.opened hkind
    exact ⟨⟨awaits, PlainMap.get_put_self _ _ _⟩, hi, hq⟩

lemma Inv.releaseQos2Message (h : b.Inv) (clientId : Str) (messageId : ℤ) :
    (b.releaseQos2Message clientId messageId).2.Inv := by
  simp only [Broker.releaseQos2Message]
  cases hget : b.getWrapper clientId with
  | none => exact h
  | some w =>
      have hl := h.live_of_getWrapper hget
      cases w with
      | transient fields queue inflights awaits =>
          exact h.putWrapper (.refl b clientId) (h.own clientId).stores (h.own clientId).keyed
            (hl.replace (.refl b clientId) rfl rfl rfl rfl fun hkind => by cases hkind)
      | persistent fields =>
          have hclient : fields.thisClientId = clientId := hl.client
          dsimp only
          rw [hclient]
          cases b.cacheService.awaitCache.get clientId with
          | none => exact h
          | some awaits => exact h.putAwaits hget rfl _

lemma Inv.sameElse_releaseQos2Message (h : b.Inv) (clientId : Str) (messageId : ℤ) :
    SameElse b (b.releaseQos2Message clientId messageId).2 clientId := by
  simp only [Broker.releaseQos2Message]
  cases hget : b.getWrapper clientId with
  | none => exact .refl b clientId
  | some w =>
      have hl := h.live_of_getWrapper hget
      cases w with
      | transient fields queue inflights awaits => exact sameElse_putWrapper hl.valid _
      | persistent fields =>
          have hclient : fields.thisClientId = clientId := hl.client
          dsimp only
          rw [hclient]
          cases b.cacheService.awaitCache.get clientId with
          | none => exact .refl b clientId
          | some awaits => exact SameElse.withCache (CacheService.sameElse_putAwaits _ _ _)

end Broker

/-! ### All operations -/

/-- The methods of a wrapper that packets and timers call. -/
inductive SessionMethod where
  | receivePuback (messageId : ℤ)
  | receivePubrec (messageId : ℤ)
  | receivePubcomp (messageId : ℤ)
  | retry (messageId : ℤ)
  | publishRetainMessage (retains : List MqttRetainMessage)

namespace SessionMethod

variable {kind : SessionKind}

def call : SessionMethod → SessionWrapper kind → SessionWrapper kind
  | .receivePuback messageId, w => w.receivePuback messageId
  | .receivePubrec messageId, w => w.receivePubrec messageId
  | .receivePubcomp messageId, w => w.receivePubcomp messageId
  | .retry messageId, w => w.retry messageId
  | .publishRetainMessage retains, w =>
      w.publishRetainMessage (retains.map MqttRetainMessage.convert2MqttMessage)

lemma kept_handleRetains (w : SessionWrapper kind) (retains : List MqttMessage) :
    SessionWrapper.Kept w (Deliveries.handleRetains w retains) := by
  induction retains generalizing w with
  | nil => exact .refl w
  | cons message retains ih =>
      have haccept : SessionWrapper.Kept w { w with ledger := w.ledger.accept message.qos } :=
        ⟨rfl, rfl, rfl, id, fun h => ⟨h, rfl⟩, id⟩
      exact (haccept.trans (SessionWrapper.kept_handleMessage _ _)).trans (ih _)

lemma kept_call (method : SessionMethod) (w : SessionWrapper kind) :
    SessionWrapper.Kept w (method.call w) := by
  cases method with
  | receivePuback messageId => exact SessionWrapper.kept_receiveFinal w messageId
  | receivePubrec messageId => exact SessionWrapper.kept_receivePubrec w messageId
  | receivePubcomp messageId => exact SessionWrapper.kept_receiveFinal w messageId
  | retry messageId => exact SessionWrapper.kept_retry w messageId
  | publishRetainMessage retains =>
      simp only [call]
      generalize retains.map MqttRetainMessage.convert2MqttMessage = messages
      rcases Deliveries.publishRetainMessage_eq w messages with heq | heq
      · rw [heq]
        exact kept_handleRetains w messages
      · rw [heq]
        exact (kept_handleRetains w messages).trans (SessionWrapper.kept_publishCachedMessage _)

end SessionMethod

namespace Broker

variable {b b' : Broker} {clientId : Str}

inductive Operation where
  | op (op : Op)
  /-- a method of the registered wrapper -/
  | call (clientId : Str) (method : SessionMethod)
  /-- a PUBREL -/
  | releaseQos2 (clientId : Str) (messageId : ℤ)

def perform (b : Broker) : Operation → Broker
  | .op op => b.step op
  | .call clientId method => b.onRegistered clientId method.call
  | .releaseQos2 clientId messageId => (b.releaseQos2Message clientId messageId).2

lemma Inv.perform (h : b.Inv) (operation : Operation) : (b.perform operation).Inv := by
  cases operation with
  | op op => exact h.step op
  | call clientId method => exact h.onRegistered clientId method.kept_call
  | releaseQos2 clientId messageId => exact h.releaseQos2Message clientId messageId

/-- The client that an operation names; the end of a connection names the connection. -/
def Operation.client : Operation → Option Str
  | .op (.connect clientId _) => some clientId
  | .op (.close _) => none
  | .op (.subscribeTopic clientId _ _) => some clientId
  | .op (.unsubscribeTopic clientId _) => some clientId
  | .op (.publish clientId _ _) => some clientId
  | .op (.receiveQos2 clientId _) => some clientId
  | .call clientId _ => some clientId
  | .releaseQos2 clientId _ => some clientId

/-- The operation is a connection of the client. -/
def Operation.Connects (operation : Operation) (clientId : Str) : Prop :=
  IdUtil.validateClientId clientId = true ∧
    ∃ cleanSession, operation = .op (.connect clientId cleanSession)

/-- An operation other than a connection and the end of one works on the client that it names. -/
lemma Inv.sameElse_perform (h : b.Inv) {operation : Operation}
    (hclient : operation.client = some clientId) (hnot : ¬operation.Connects clientId) :
    SameElse b (b.perform operation) clientId := by
  cases operation with
  | call c method =>
      obtain rfl := Option.some.inj hclient
      exact h.sameElse_onRegistered c method.kept_call
  | releaseQos2 c messageId =>
      obtain rfl := Option.some.inj hclient
      exact h.sameElse_releaseQos2Message c messageId
  | op op =>
      cases op with
      | connect c cleanSession =>
          obtain rfl := Option.some.inj hclient
          have hv : ¬IdUtil.validateClientId c = true := fun hv => hnot ⟨hv, cleanSession, rfl⟩
          have hstep : b.perform (.op (.connect c cleanSession)) = b := if_neg hv
          rw [hstep]
          exact .refl b c
      | close id => cases hclient
      | subscribeTopic c topic qos =>
          obtain rfl := Option.some.inj hclient
          exact h.sameElse_subscribeTopic c topic qos
      | unsubscribeTopic c topic =>
          obtain rfl := Option.some.inj hclient
          exact h.sameElse_unsubscribeTopic c topic
      | publish c message qos =>
          obtain rfl := Option.some.inj hclient
          exact h.sameElse_handleLocalPublishMessage c message qos
      | receiveQos2 c awaitMessage =>
          obtain rfl := Option.some.inj hclient
          exact h.sameElse_receiveQos2Message c awaitMessage

end Broker

end Stuart
