/-
The lifecycle of the sessions of a standalone broker, operation by operation.

The broker starts over what is stored of persistent sessions and then runs connects, closes,
subscriptions and publishes of any clients, each to its end.  The invariant is local to a client:
`Own` says how its registered wrapper, its session record and its stores belong together.  An
operation on one client keeps `Own` of all others, so each operation has one lemma about its own
client.
-/
import Stuart.Services.ClientFrame

namespace Stuart

open List Lib

namespace ClientData

/-- The record of a persistent session is stored. -/
def Persistent (d : ClientData) : Prop :=
  ∃ session, d.session = some session ∧ session.cleanSession = false

/-- Nothing is stored of what belongs to persistent sessions only. -/
def NoStores (d : ClientData) : Prop := d.awaits = none ∧ d.inflights = none ∧ d.queue = none

/-- The messages in the stored queue, the first one in front. -/
def queued (d : ClientData) : List MqttMessage :=
  match d.queue with
  | none => []
  | some queue => queue.items

def awaitOf (d : ClientData) (messageId : ℤ) : Option MqttAwaitMessage :=
  d.awaits.bind fun awaits => awaits.get messageId

def inflightOf (d : ClientData) (messageId : ℤ) : Option MqttMessage :=
  d.inflights.bind fun inflights => inflights.get messageId

/-- Every stored inflight message has the packet id it is stored under. -/
def Keyed (d : ClientData) : Prop :=
  ∀ inflights, d.inflights = some inflights → @Inflights.Keyed .persistent inflights

end ClientData

namespace Broker

/-- The broker after a start: there is no connection and no wrapper yet, the records of clean
sessions are destroyed, and only persistent sessions have queues, inflight and await messages. -/
structure Restarted (b : Broker) : Prop where
  endpoints : b.endpoints = []
  wrappers : b.wrappers = ∅
  routers : b.cacheService.routerCache.Consistent
  stores : ∀ clientId, ¬(b.cacheService.data clientId).Persistent →
    (b.cacheService.data clientId).NoStores
  keyed : ∀ clientId, (b.cacheService.data clientId).Keyed

/-- An operation, run without another one in between. -/
inductive Op where
  | connect (clientId : Str) (cleanSession : Bool)
  /-- the connection ends, and then `closeSession` runs for it -/
  | close (id : ℕ)
  | subscribeTopic (clientId topic : Str) (qos : ℤ)
  | unsubscribeTopic (clientId topic : Str)
  | publish (clientId : Str) (message : MqttMessage) (qos : MqttQoS)
  | receiveQos2 (clientId : Str) (awaitMessage : MqttAwaitMessage)

def step (b : Broker) : Op → Broker
  | .connect clientId cleanSession =>
      -- `handleEndpoint` rejects an empty client id
      if IdUtil.validateClientId clientId then (b.handleAccept clientId cleanSession).2 else b
  | .close id => (b.disconnect id).closeSession id
  | .subscribeTopic clientId topic qos => b.subscribeTopic clientId topic qos
  | .unsubscribeTopic clientId topic => b.unsubscribeTopic clientId topic
  | .publish clientId message qos => b.handleLocalPublishMessage clientId message qos
  | .receiveQos2 clientId awaitMessage => b.receiveQos2Message clientId awaitMessage

/-- The connection is the latest one of the client. -/
def MostRecent (b : Broker) (clientId : Str) (id : ℕ) : Prop :=
  (∃ cleanSession, b.owner id = some (clientId, cleanSession)) ∧
    ∀ id' cleanSession, id < id' → b.owner id' ≠ some (clientId, cleanSession)

/-! ### The invariant -/

/-- What a persistent wrapper works on is stored, and the queue is one of the configured
capacity. -/
structure Opened (b : Broker) (clientId : Str) : Prop where
  awaits : ∃ awaits, (b.cacheService.data clientId).awaits = some awaits
  inflights : ∃ inflights, (b.cacheService.data clientId).inflights = some inflights
  queue : ∃ queue, (b.cacheService.data clientId).queue = some queue ∧
    queue.capacity = b.cacheService.config.sessionQueueMaxCapacity ∧ queue.Bounded

/-- A registered wrapper belongs to the stored record and to the latest connection of its
client. -/
structure Live (b : Broker) (clientId : Str) (w : Wrapper) : Prop where
  valid : IdUtil.validateClientId clientId = true
  client : w.fields.thisClientId = clientId
  session : (b.cacheService.data clientId).session =
    some ⟨clientId, decide (w.kind = .transient), b.cacheService.thisNodeId⟩
  owner : b.owner w.endpoint = some (clientId, decide (w.kind = .transient))
  latest : ∀ id cleanSession, w.endpoint < id → b.owner id ≠ some (clientId, cleanSession)
  opened : w.kind = .persistent → b.Opened clientId

/-- What holds of one client. -/
structure Own (b : Broker) (clientId : Str) : Prop where
  stores : ¬(b.cacheService.data clientId).Persistent → (b.cacheService.data clientId).NoStores
  keyed : (b.cacheService.data clientId).Keyed
  live : ∀ w, b.wrappers.get clientId = some w → b.Live clientId w

structure Inv (b : Broker) : Prop where
  routers : b.cacheService.routerCache.Consistent
  own : ∀ clientId, b.Own clientId

variable {b b' : Broker} {clientId : Str}

lemma Restarted.inv (h : b.Restarted) : b.Inv where
  routers := h.routers
  own := fun c => ⟨h.stores c, h.keyed c, fun w hw => by simp [h.wrappers] at hw⟩

/-- A wrapper of the same kind, client and endpoint over the same record. -/
lemma Live.replace {c : Str} {w w' : Wrapper} (h : b.Live c w) (hf : SameElse b b' clientId)
    (hkind : w'.kind = w.kind) (hclient : w'.fields.thisClientId = w.fields.thisClientId)
    (hend : w'.endpoint = w.endpoint)
    (hsession : (b'.cacheService.data c).session = (b.cacheService.data c).session)
    (hopened : w.kind = .persistent → b'.Opened c) : b'.Live c w' := by
  refine ⟨h.valid, hclient.trans h.client, ?_, ?_, fun id flag => ?_, hkind ▸ hopened⟩
  · rw [hsession, hf.cache.thisNodeId, hkind]
    exact h.session
  · rw [hf.owner, hkind, hend]
    exact h.owner
  · rw [hf.owner, hend]
    exact h.latest id flag

/-- Only the routers of a client may change. -/
lemma Own.congr {c : Str} (h : b.Own c) (hf : SameElse b b' clientId)
    (hw : b'.wrappers.get c = b.wrappers.get c)
    (hdata : b'.cacheService.data c = { b.cacheService.data c with
      routers := (b'.cacheService.data c).routers }) : b'.Own c := by
  have hsession := congrArg ClientData.session hdata
  have hawaits := congrArg ClientData.awaits hdata
  have hinflights := congrArg ClientData.inflights hdata
  have hqueue := congrArg ClientData.queue hdata
  simp only at hsession hawaits hinflights hqueue
  refine ⟨?_, ?_, fun w hget => ?_⟩
  · simp only [ClientData.Persistent, ClientData.NoStores]
    rw [hsession, hawaits, hinflights, hqueue]
    exact h.stores
  · simp only [ClientData.Keyed]
    rw [hinflights]
    exact h.keyed
  · rw [hw] at hget
    have hl := h.live w hget
    refine hl.replace hf rfl rfl rfl hsession fun hkind => ?_
    obtain ⟨ha, hi, hq⟩ := hl.opened hkind
    exact ⟨by rw [hawaits]; exact ha, by rw [hinflights]; exact hi,
      by rw [hqueue, hf.cache.config]; exact hq⟩

lemma Own.frame {c : Str} (h : b.Own c) (hf : SameElse b b' clientId) (hne : c ≠ clientId) :
    b'.Own c :=
  h.congr hf (hf.wrappers c hne) (by rw [hf.cache.data c hne])

/-- After an operation on one client only that client has to be looked at. -/
lemma Inv.frame (h : b.Inv) (hf : SameElse b b' clientId) (hown : b'.Own clientId) : b'.Inv := by
  refine ⟨hf.cache.routers h.routers, fun c => ?_⟩
  by_cases hne : c = clientId
  · rw [hne]
    exact hown
  · exact (h.own c).frame hf hne

/-! ### Subscriptions -/

lemma Inv.saveRouter (h : b.Inv) (c topic : Str) (qos : ℤ) :
    (b.withCache (b.cacheService.saveRouter c topic qos)).Inv := by
  have hf : SameElse b (b.withCache (b.cacheService.saveRouter c topic qos)) c :=
    SameElse.withCache (CacheService.sameElse_saveRouter h.routers topic qos)
  exact h.frame hf ((h.own c).congr hf rfl rfl)

lemma Inv.deleteRouter (h : b.Inv) (c topic : Str) :
    (b.withCache (b.cacheService.deleteRouter c topic)).Inv := by
  have hf : SameElse b (b.withCache (b.cacheService.deleteRouter c topic)) c :=
    SameElse.withCache (CacheService.sameElse_deleteRouter h.routers topic)
  exact h.frame hf ((h.own c).congr hf rfl rfl)

lemma Inv.subscribeTopic (h : b.Inv) (clientId topic : Str) (qos : ℤ) :
    (b.subscribeTopic clientId topic qos).Inv := by
  simp only [Broker.subscribeTopic]
  cases hget : b.getWrapper clientId with
  | none => exact h
  | some w => exact h.saveRouter _ topic qos

lemma Inv.unsubscribeTopic (h : b.Inv) (clientId topic : Str) :
    (b.unsubscribeTopic clientId topic).Inv := by
  simp only [Broker.unsubscribeTopic]
  cases hget : b.getWrapper clientId with
  | none => exact h
  | some w => exact h.deleteRouter _ topic

lemma valid_of_getWrapper {w : Wrapper} (hget : b.getWrapper clientId = some w) :
    IdUtil.validateClientId clientId = true := by
  by_contra hv
  rw [getWrapper, if_pos (by simpa using hv)] at hget
  exact absurd hget (by simp)

/-! ### Messages -/

/-- A wrapper that fits to the record takes the place of the registered one. -/
lemma Inv.putWrapper (h : b.Inv) (hf : SameElse b b' clientId)
    (hstores : ¬(b'.cacheService.data clientId).Persistent →
      (b'.cacheService.data clientId).NoStores)
    (hkeyed : (b'.cacheService.data clientId).Keyed) {w : Wrapper} (hl : b'.Live clientId w) :
    (b'.putWrapper clientId w).Inv := by
  have hput := hf.trans (sameElse_putWrapper hl.valid w)
  rw [putWrapper_eq hl.valid] at hput ⊢
  refine h.frame hput ⟨hstores, hkeyed, fun w' hw' => ?_⟩
  obtain rfl := Option.some.inj ((PlainMap.get_put_self _ _ _).symm.trans hw')
  refine ⟨hl.valid, hl.client, hl.session, hl.owner, hl.latest, fun hkind => ?_⟩
  obtain ⟨ha, hi, hq⟩ := hl.opened hkind
  exact ⟨ha, hi, hq⟩

section OnRegistered

variable {f : ∀ {kind}, SessionWrapper kind → SessionWrapper kind}

/-- The registered wrapper of a client. -/
lemma Inv.live_of_getWrapper (h : b.Inv) {w : Wrapper} (hget : b.getWrapper clientId = some w) :
    b.Live clientId w := by
  rw [getWrapper_eq (valid_of_getWrapper hget)] at hget
  exact (h.own clientId).live w hget

/-- A method of a transient wrapper changes the wrapper and its endpoint. -/
lemma Inv.onRegistered_transient (h : b.Inv)
    (hf : ∀ {kind} (w : SessionWrapper kind), SessionWrapper.Kept w (f w))
    {fields : WrapperFields} {queue : BoundedQueue MqttMessage}
    {inflights : PlainMap ℤ MqttMessage} {awaits : PlainMap ℤ MqttAwaitMessage}
    (hget : b.getWrapper clientId = some (.transient fields queue inflights awaits)) :
    (b.onRegistered clientId f).Inv := by
  have hl := h.live_of_getWrapper hget
  obtain ⟨endpoint, hend, -⟩ := Option.map_eq_some_iff.1 hl.owner
  have hend' : b.endpoint fields.endpoint = some endpoint := hend
  set w : SessionWrapper .transient := ⟨b.cacheService.config, fields.thisClientId, endpoint, queue,
    inflights, fields.timeouts, fields.ledger⟩ with hw
  have hlink := (hf w).link
  simp only [MqttEndpoint.link, Prod.mk.injEq] at hlink
  have hset : SameElse b (b.setEndpoint fields.endpoint (f w).endpoint) clientId :=
    sameElse_setEndpoint (f w).endpoint hend' hlink.2.1 hlink.2.2.1 clientId
  simp only [Broker.onRegistered]
  simp only [hget, onWrapper, onTransient, hend', ← hw]
  exact h.putWrapper hset (h.own clientId).stores (h.own clientId).keyed
    (hl.replace hset rfl rfl rfl rfl fun hkind => by cases hkind)

/-- A method of a persistent wrapper changes what is stored, too. -/
lemma Inv.onRegistered_persistent (h : b.Inv)
    (hf : ∀ {kind} (w : SessionWrapper kind), SessionWrapper.Kept w (f w))
    {fields : WrapperFields} (hget : b.getWrapper clientId = some (.persistent fields)) :
    (b.onRegistered clientId f).Inv := by
  have hl := h.live_of_getWrapper hget
  obtain ⟨endpoint, hend, -⟩ := Option.map_eq_some_iff.1 hl.owner
  have hclient : fields.thisClientId = clientId := hl.client
  obtain ⟨ha, ⟨inflights, hi⟩, queue, hq, hcap, hb⟩ := hl.opened rfl
  rw [← hclient] at hi hq
  obtain ⟨b', hon, hsame, -, -, hdata⟩ :=
    onPersistent_spec hf (show b.endpoint fields.endpoint = some endpoint from hend) hq hi
  set w : SessionWrapper .persistent := ⟨b.cacheService.config, fields.thisClientId, endpoint,
    queue, inflights, fields.timeouts, fields.ledger⟩
  have hkept : SessionWrapper.Kept w (f w) := hf w
  rw [hclient] at hsame hdata hi
  have hsession : (b'.cacheService.data clientId).session =
      (b.cacheService.data clientId).session := by rw [hdata]
  simp only [Broker.onRegistered]
  simp only [hget, onWrapper, hon]
  refine h.putWrapper hsame (fun hnot => ?_) (fun m hm => ?_)
    (hl.replace hsame rfl rfl rfl hsession fun _ => ?_)
  · exact absurd ⟨_, hsession.trans hl.session, rfl⟩ hnot
  · obtain rfl := Option.some.inj ((congrArg ClientData.inflights hdata).symm.trans hm)
    exact hkept.keyed ((h.own clientId).keyed inflights hi)
  · obtain ⟨hb', hcap'⟩ := hkept.queue hb
    refine ⟨?_, ⟨(f w).inflights, ?_⟩, (f w).queue, ?_, ?_, hb'⟩
    · rw [hdata]
      exact ha
    · rw [hdata]
    · rw [hdata]
    · rw [hcap', hsame.cache.config]
      exact hcap

/-- A method of the registered wrapper. -/
lemma Inv.onRegistered (h : b.Inv) (clientId : Str)
    (hf : ∀ {kind} (w : SessionWrapper kind), SessionWrapper.Kept w (f w)) :
    (b.onRegistered clientId f).Inv := by
  cases hget : b.getWrapper clientId with
  | none =>
      simp only [Broker.onRegistered]
      rw [hget]
      exact h
  | some w =>
      cases w with
      | transient fields queue inflights awaits => exact h.onRegistered_transient hf hget
      | persistent fields => exact h.onRegistered_persistent hf hget

end OnRegistered

/-- Something is put into the stored queue of a session without a wrapper. -/
lemma Inv.enqueue (h : b.Inv) (hnone : b.getWrapper clientId = none)
    (hpers : b.cacheService.isPersistentSession clientId = true) (message : MqttMessage)
    (qos : MqttQoS) :
    (b.withCache (b.cacheService.enqueue message clientId qos).2).Inv := by
  have hv : IdUtil.validateClientId clientId = true := by
    by_contra hv
    rw [CacheService.isPersistentSession, CacheService.getSession, if_pos (by simpa using hv)]
      at hpers
    exact absurd hpers (by simp)
  have hf : SameElse b (b.withCache (b.cacheService.enqueue message clientId qos).2) clientId :=
    SameElse.withCache (CacheService.sameElse_enqueue message qos)
  refine h.frame hf ?_
  -- nothing is stored, or the message is in the queue now; the session is a persistent one
  rcases CacheService.data_enqueue (s := b.cacheService) message qos clientId with
    hdata | ⟨-, queue, -, hdata⟩
  · have hsame : (b.withCache (b.cacheService.enqueue message clientId qos).2).cacheService.data
        clientId = b.cacheService.data clientId := hdata
    exact (h.own clientId).congr hf rfl (by rw [hsame])
  · have hpers' := (CacheService.isPersistentSession_iff hv).1 hpers
    refine ⟨fun hnot => absurd ?_ hnot, ?_, fun w hw => ?_⟩
    · show ClientData.Persistent ((b.cacheService.enqueue message clientId qos).2.data clientId)
      rw [hdata]
      exact hpers'
    · show ClientData.Keyed ((b.cacheService.enqueue message clientId qos).2.data clientId)
      rw [hdata]
      exact (h.own clientId).keyed
    · rw [getWrapper_eq hv] at hnone
      exact absurd (hnone.symm.trans hw) (by simp)

lemma Inv.handleLocalPublishMessage (h : b.Inv) (clientId : Str) (message : MqttMessage)
    (qos : MqttQoS) : (b.handleLocalPublishMessage clientId message qos).Inv := by
  simp only [Broker.handleLocalPublishMessage]
  cases hget : b.getWrapper clientId with
  | some w =>
      exact h.onRegistered clientId fun w => SessionWrapper.kept_publishMessage w message qos
  | none =>
      dsimp only
      split_ifs with hpers
      · exact (h.enqueue hget hpers message qos).onRegistered clientId
          SessionWrapper.kept_publishCachedMessage
      · exact h

lemma Inv.receiveQos2Message (h : b.Inv) (clientId : Str) (awaitMessage : MqttAwaitMessage) :
    (b.receiveQos2Message clientId awaitMessage).Inv := by
  simp only [Broker.receiveQos2Message]
  cases hget : b.getWrapper clientId with
  | none => exact h
  | some w =>
      have hv := valid_of_getWrapper hget
      rw [getWrapper_eq hv] at hget
      have hl := (h.own clientId).live w hget
      cases w with
      | transient fields queue inflights awaits =>
          exact h.putWrapper (.refl b clientId) (h.own clientId).stores (h.own clientId).keyed
            (hl.replace (.refl b clientId) rfl rfl rfl rfl fun hkind => by cases hkind)
      | persistent fields =>
          have hclient : fields.thisClientId = clientId := hl.client
          subst hclient
          dsimp only
          cases hawaits : b.cacheService.awaitCache.get fields.thisClientId with
          | none => exact h
          | some awaits =>
              dsimp only
              set result := (awaits.put awaitMessage.messageId awaitMessage).2
              have hf := @SameElse.withCache b fields.thisClientId _
                (CacheService.sameElse_putAwaits b.cacheService fields.thisClientId result)
              refine h.frame hf ⟨fun hnot => ?_, (h.own fields.thisClientId).keyed, fun w hw => ?_⟩
              · exact absurd ⟨_, hl.session, rfl⟩ hnot
              · obtain rfl := Option.some.inj (hget.symm.trans hw)
                refine hl.replace hf rfl rfl rfl rfl fun hkind => ?_
                obtain ⟨-, hi, hq⟩ := hl.opened hkind
                exact ⟨⟨result, PlainMap.get_put_self _ _ _⟩, hi, hq⟩

/-! ### Closing -/

lemma Inv.disconnect (h : b.Inv) (id : ℕ) : (b.disconnect id).Inv := by
  refine h.frame (sameElse_disconnect id []) ((h.own []).congr (sameElse_disconnect id []) ?_ ?_)
  · rw [disconnect_wrappers]
  · rw [disconnect_cacheService]

/-- A session record that is not of a persistent session. -/
lemma Live.not_persistent {w : Wrapper} (hl : b.Live clientId w) (hkind : w.kind = .transient) :
    ¬(b.cacheService.data clientId).Persistent := by
  rintro ⟨session, hsession, hclean⟩
  obtain rfl := Option.some.inj (hl.session.symm.trans hsession)
  simp [hkind] at hclean

lemma Live.isCleanSession {w : Wrapper} (hl : b.Live clientId w) {endpoint : MqttEndpoint}
    (hend : b.endpoint w.endpoint = some endpoint) :
    endpoint.clientIdentifier = clientId ∧
      endpoint.isCleanSession = decide (w.kind = .transient) := by
  have howner := hl.owner
  rw [Broker.owner, hend, Option.map_some, Option.some.injEq, Prod.mk.injEq] at howner
  exact howner

lemma Inv.closeSession (h : b.Inv) (id : ℕ) : (b.closeSession id).Inv := by
  simp only [Broker.closeSession]
  cases hend : b.endpoint id with
  | none => exact h
  | some endpoint =>
      dsimp only
      split_ifs
      · rcases closeLocked_cases (b := b) endpoint id with ⟨-, heq⟩ | ⟨w, hget, rfl, hcases⟩
        · rw [heq]
          exact h
        · have hv := valid_of_getWrapper hget
          rw [getWrapper_eq hv] at hget
          have hl := (h.own endpoint.clientIdentifier).live w hget
          have hrem := sameElse_removeWrapper (b := b) hv
          -- the wrapper goes; of a clean session the record and the routers too
          rcases hcases with ⟨-, heq⟩ | ⟨hclean, heq⟩
          · rw [heq]
            rw [removeWrapper_eq hv] at hrem ⊢
            refine h.frame hrem ⟨(h.own _).stores, (h.own _).keyed, fun w' hw' => ?_⟩
            exact absurd hw' (by simp)
          · obtain ⟨hsame, hdata⟩ := data_closeClean h.routers hv
            rw [heq, removeWrapper_eq hv]
            rw [removeWrapper_eq hv] at hrem
            have hf := hrem.trans (SameElse.withCache hsame)
            refine h.frame hf ⟨fun _ => ?_, ?_, fun w' hw' => ?_⟩
            · have hkind : w.kind = .transient := by
                have := (hl.isCleanSession hend).2
                rw [hclean] at this
                simpa using this.symm
              have hstores := (h.own _).stores (hl.not_persistent hkind)
              simp only [ClientData.NoStores] at hstores ⊢
              rw [show (Broker.cacheService _).data _ = _ from hdata]
              exact hstores
            · intro m hm
              rw [show (Broker.cacheService _).data _ = _ from hdata] at hm
              exact (h.own _).keyed m hm
            · exact absurd hw' (by simp [withCache])
      · exact h

/-- Closing the connection of the registered wrapper: the wrapper goes, and of a clean session
the record and the routers too. -/
lemma Inv.close_current (h : b.Inv) {w : Wrapper} (hget : b.getWrapper clientId = some w) :
    SameElse b (b.step (.close w.endpoint)) clientId ∧
      (b.step (.close w.endpoint)).getWrapper clientId = none ∧
      (b.step (.close w.endpoint)).cacheService.data clientId =
        if w.kind = .transient then
          { b.cacheService.data clientId with session := none, routers := fun _ => none }
        else b.cacheService.data clientId := by
  have hv := valid_of_getWrapper hget
  rw [getWrapper_eq hv] at hget
  have hl := (h.own clientId).live w hget
  obtain ⟨endpoint, hend, -⟩ := Option.map_eq_some_iff.1 hl.owner
  obtain ⟨hclient, hclean⟩ := hl.isCleanSession hend
  have hend' : (b.disconnect w.endpoint).endpoint w.endpoint = some endpoint.close := by
    rw [endpoint_disconnect, if_pos rfl, hend]
    rfl
  have hget' : (b.disconnect w.endpoint).getWrapper clientId = some w := by
    rw [getWrapper_eq hv, disconnect_wrappers, hget]
  have hmay : (b.disconnect w.endpoint).mayClose endpoint.close = true := by
    simp only [mayClose]
    rw [disconnect_wrappers, Bool.and_eq_true]
    refine ⟨rfl, (PlainMap.containsKey_iff _ _).2 ?_⟩
    rw [show endpoint.close.clientIdentifier = clientId from hclient, hget]
    simp
  have hstep : b.step (.close w.endpoint) =
      (b.disconnect w.endpoint).closeLocked endpoint.close w.endpoint := by
    show (b.disconnect w.endpoint).closeSession w.endpoint = _
    simp only [Broker.closeSession]
    rw [hend']
    exact if_pos hmay
  have hdis := sameElse_disconnect (b := b) w.endpoint clientId
  have hr : (b.disconnect w.endpoint).cacheService.routerCache.Consistent := by
    rw [disconnect_cacheService]
    exact h.routers
  rw [hstep]
  rcases closeLocked_cases (b := b.disconnect w.endpoint) endpoint.close w.endpoint with
    ⟨hnone, -⟩ | ⟨w', -, -, hcases⟩
  · rw [show endpoint.close.clientIdentifier = clientId from hclient] at hnone
    exact absurd rfl (hnone w hget')
  · rw [show endpoint.close.clientIdentifier = clientId from hclient,
      show endpoint.close.isCleanSession = decide (w.kind = .transient) from hclean] at hcases
    have hrem := hdis.trans (sameElse_removeWrapper (b := b.disconnect w.endpoint) hv)
    -- the record has the kind of the wrapper, so which of the two it is shows there
    rcases hcases with ⟨hnot, heq⟩ | ⟨hkind, heq⟩
    · have hkind : w.kind ≠ .transient := by
        intro hkind
        have hs := hl.session
        rw [← CacheService.getSession_eq hv, ← disconnect_cacheService w.endpoint] at hs
        exact hnot _ hs (by simp [hkind]) rfl
      rw [heq]
      refine ⟨hrem, ?_, ?_⟩
      · rw [getWrapper_eq hv, removeWrapper_eq hv]
        exact PlainMap.get_remove_self _ _
      · rw [removeWrapper_eq hv, if_neg hkind, disconnect_cacheService]
    · obtain ⟨hsame, hdata⟩ := data_closeClean hr hv
      rw [heq]
      refine ⟨hrem.trans (SameElse.withCache ?_), ?_, ?_⟩
      · rw [removeWrapper_eq hv]
        exact hsame
      · rw [getWrapper_eq hv, removeWrapper_eq hv]
        exact PlainMap.get_remove_self _ _
      · rw [if_pos (by simpa using hkind)]
        refine hdata.trans ?_
        rw [disconnect_cacheService]

/-- Closing a connection that no registered wrapper holds changes nothing but the endpoint. -/
lemma close_superseded {id : ℕ} {endpoint : MqttEndpoint} (hend : b.endpoint id = some endpoint)
    (hnot : ∀ w, b.getWrapper endpoint.clientIdentifier = some w → w.endpoint ≠ id) :
    (b.step (.close id)).cacheService = b.cacheService ∧
      (b.step (.close id)).wrappers = b.wrappers := by
  have hend' : (b.disconnect id).endpoint id = some endpoint.close := by
    rw [endpoint_disconnect, if_pos rfl, hend]
    rfl
  have hdis : (b.disconnect id).closeSession id = b.disconnect id := by
    simp only [Broker.closeSession]
    rw [hend']
    dsimp only
    split_ifs
    -- `closeLocked` compares the endpoint of the wrapper, which is another one
    · rcases closeLocked_cases (b := b.disconnect id) endpoint.close id with
        ⟨-, heq⟩ | ⟨w, hget, hid, -⟩
      · exact heq
      · refine absurd hid (hnot w ?_)
        rw [← hget]
        simp only [getWrapper]
        rw [disconnect_wrappers]
        rfl
    · rfl
  show ((b.disconnect id).closeSession id).cacheService = _ ∧ _
  rw [show b.step (.close id) = (b.disconnect id).closeSession id from rfl, hdis]
  exact ⟨disconnect_cacheService id, disconnect_wrappers id⟩

/-- A close leaves every connection to its client. -/
lemma owner_close (id id' : ℕ) : (b.step (.close id)).owner id' = b.owner id' := by
  have hclose : ((b.disconnect id).closeSession id).endpoints = (b.disconnect id).endpoints := by
    simp only [Broker.closeSession]
    cases hend : (b.disconnect id).endpoint id with
    | none => rfl
    | some endpoint =>
        dsimp only
        split_ifs
        · rcases closeLocked_cases (b := b.disconnect id) endpoint id with
            ⟨-, heq⟩ | ⟨w, hget, -, hcases⟩
          · rw [heq]
          · have hv := valid_of_getWrapper hget
            rcases hcases with ⟨-, heq⟩ | ⟨-, heq⟩
            · rw [heq, removeWrapper_eq hv]
            · rw [heq, removeWrapper_eq hv]
              rfl
        · rfl
  have howner := (sameElse_disconnect (b := b) id []).owner id'
  simp only [Broker.owner, Broker.endpoint] at howner ⊢
  show Option.map _ ((b.disconnect id).closeSession id).endpoints[id']? = _
  rw [hclose]
  exact howner

/-! ### Connecting -/

/-- The broker when a CONNECT has come in. -/
def addEndpoint (b : Broker) (clientId : Str) (cleanSession : Bool) : Broker :=
  { b with endpoints :=
      b.endpoints ++ [MqttEndpoint.create b.endpoints.length clientId cleanSession] }

lemma endpoint_addEndpoint (cleanSession : Bool) (id : ℕ) :
    (b.addEndpoint clientId cleanSession).endpoint id =
      if id = b.endpoints.length then
        some (MqttEndpoint.create b.endpoints.length clientId cleanSession)
      else b.endpoint id := by
  simp only [addEndpoint, Broker.endpoint]
  exact getElem?_concat_eq_ite _ _ _

lemma owner_addEndpoint (cleanSession : Bool) (id : ℕ) :
    (b.addEndpoint clientId cleanSession).owner id =
      if id = b.endpoints.length then some (clientId, cleanSession) else b.owner id := by
  simp only [Broker.owner]
  rw [endpoint_addEndpoint]
  split_ifs <;> rfl

lemma owner_of_le {id : ℕ} (h : b.endpoints.length ≤ id) : b.owner id = none := by
  simp only [Broker.owner, Broker.endpoint]
  rw [List.getElem?_eq_none h]
  rfl

/-- The connection of another client changes nothing for a client. -/
lemma Own.addEndpoint {c : Str} (h : b.Own c) (hne : c ≠ clientId) (cleanSession : Bool) :
    (b.addEndpoint clientId cleanSession).Own c := by
  refine ⟨h.stores, h.keyed, fun w hw => ?_⟩
  have hl := h.live w hw
  refine ⟨hl.valid, hl.client, hl.session, ?_, fun id flag hlt => ?_, fun hkind => ?_⟩
  · rw [owner_addEndpoint, if_neg, hl.owner]
    intro heq
    have howner := hl.owner
    rw [heq, owner_of_le le_rfl] at howner
    exact absurd howner (by simp)
  · rw [owner_addEndpoint]
    split_ifs
    · intro heq
      exact hne (congrArg Prod.fst (Option.some.inj heq)).symm
    · exact hl.latest id flag hlt
  · obtain ⟨ha, hi, hq⟩ := hl.opened hkind
    exact ⟨ha, hi, hq⟩

/-- What a new session of a client takes over: all of a persistent one, if it is not to be clean,
and otherwise nothing. -/
def inherited (b : Broker) (clientId : Str) (cleanSession : Bool) : ClientData :=
  if cleanSession = false ∧ b.cacheService.isPersistentSession clientId = true then
    b.cacheService.data clientId
  else ⟨none, fun _ => none, none, none, none⟩

/-- The broker when the old session has been torn down for a new connection. -/
def tornDown (b : Broker) (clientId : Str) (cleanSession : Bool) : Broker :=
  ((b.addEndpoint clientId cleanSession).takeWrapper clientId cleanSession).2.teardown clientId
    cleanSession (b.cacheService.isPersistentSession clientId) (b.wrappers.get clientId)

/-- A session that does not go on takes over nothing. -/
lemma inherited_of_destroy {cleanSession : Bool}
    (h : cleanSession = true ∨ b.cacheService.isPersistentSession clientId = false) :
    b.inherited clientId cleanSession = ⟨none, fun _ => none, none, none, none⟩ := by
  refine if_neg fun hand => ?_
  rcases h with h | h
  · rw [hand.1] at h
    cases h
  · rw [hand.2] at h
    cases h

/-- The new endpoint is not connected yet, so the teardown does not close it. -/
lemma endpoint_closeOld {id : ℕ} {endpoint : MqttEndpoint} (hend : b.endpoint id = some endpoint)
    (hnot : endpoint.isConnected = false) (old : Option Wrapper) :
    (b.closeOld old).endpoint id = some endpoint := by
  cases old with
  | none => exact hend
  | some w =>
      refine (endpoint_closeEndpoint w id).trans ?_
      rw [hend, Option.map_some, if_neg]
      rintro ⟨-, hc⟩
      rw [hnot] at hc
      cases hc

/-- The data of the client after the teardown: what the new session takes over, with the record of
the new session. -/
lemma Inv.data_tornDown (h : b.Inv) (hv : IdUtil.validateClientId clientId = true)
    (cleanSession : Bool) :
    (b.tornDown clientId cleanSession).cacheService.data clientId =
      { b.inherited clientId cleanSession with
        session := some ⟨clientId, cleanSession, b.cacheService.thisNodeId⟩ } := by
  have hlive : ∀ w, b.wrappers.get clientId = some w → b.Live clientId w :=
    (h.own clientId).live
  obtain ⟨-, hsame, -, -, hdata⟩ :=
    takeWrapper_spec (b := b.addEndpoint clientId cleanSession) hv cleanSession
  simp only [tornDown]
  set b₁ := ((b.addEndpoint clientId cleanSession).takeWrapper clientId cleanSession).2
  have hr₁ : b₁.cacheService.routerCache.Consistent := hsame.cache.routers h.routers
  have hdata₁ : b₁.cacheService.data clientId = { b.cacheService.data clientId with
      session := some ⟨clientId, cleanSession, b.cacheService.thisNodeId⟩ } := hdata
  rcases @teardown_cases b₁ clientId cleanSession (b.cacheService.isPersistentSession clientId)
    (b.wrappers.get clientId) (fun w hw => (hlive w hw).client) with
    ⟨hclean, hpers, heq⟩ | ⟨hdestroy, heq | ⟨hkind, hnonpers, heq⟩⟩
  · have hinh : b.inherited clientId cleanSession = b.cacheService.data clientId :=
      if_pos ⟨hclean, hpers⟩
    rw [heq, closeOld_cacheService, hdata₁, hinh]
  · rw [heq, inherited_of_destroy hdestroy]
    refine (CacheService.data_destroyPersistentSession hr₁ hv clientId).trans ?_
    rw [if_pos rfl, hdata₁]
  · -- there is nothing that only a persistent session has
    have hstores : (b.cacheService.data clientId).NoStores := by
      refine (h.own clientId).stores ?_
      cases hget : b.wrappers.get clientId with
      | some w => exact (hlive w hget).not_persistent (hkind w hget)
      | none =>
          intro hp
          have hpers := (CacheService.isPersistentSession_iff hv).2 hp
          rw [hnonpers hget] at hpers
          cases hpers
    obtain ⟨ha, hi, hq⟩ := hstores
    rw [heq, inherited_of_destroy hdestroy]
    refine (CacheService.data_destroyTransientSession hr₁ hv clientId).trans ?_
    rw [if_pos rfl, hdata₁]
    simp only [ha, hi, hq]

/-- The teardown takes the old wrapper and leaves the new endpoint. -/
lemma Inv.tornDown_spec (h : b.Inv) (hv : IdUtil.validateClientId clientId = true)
    (cleanSession : Bool) :
    SameElse (b.addEndpoint clientId cleanSession) (b.tornDown clientId cleanSession) clientId ∧
      (b.tornDown clientId cleanSession).endpoint b.endpoints.length =
        some (MqttEndpoint.create b.endpoints.length clientId cleanSession) := by
  obtain ⟨-, hsame, -, hends, -⟩ :=
    takeWrapper_spec (b := b.addEndpoint clientId cleanSession) hv cleanSession
  obtain ⟨hsame', -, hends', -, -⟩ := teardown_spec (hsame.cache.routers h.routers) hv
    (fun w hw => ((h.own clientId).live w hw).client)
    (rfl : _ = b.tornDown clientId cleanSession)
  refine ⟨hsame.trans hsame', ?_⟩
  have hnew : ((b.addEndpoint clientId cleanSession).takeWrapper clientId cleanSession).2.endpoint
      b.endpoints.length =
        some (MqttEndpoint.create b.endpoints.length clientId cleanSession) := by
    simp only [Broker.endpoint]
    rw [hends]
    exact (endpoint_addEndpoint cleanSession _).trans (if_pos rfl)
  have hclosed := endpoint_closeOld hnew rfl (b.wrappers.get clientId)
  simp only [Broker.endpoint] at hclosed ⊢
  rw [hends', hclosed]

/-- The stored data `d'` of a persistent session continue those of `d`: the same await and inflight
messages, and of the queue the newest messages that fit in. -/
structure Continues (config : Config) (d d' : ClientData) : Prop where
  awaits : ∃ awaits, d'.awaits = some awaits ∧ ∀ id, awaits.get id = d.awaitOf id
  inflights : ∃ inflights, d'.inflights = some inflights ∧ @Inflights.Keyed .persistent inflights ∧
    ∀ id, inflights.get id = d.inflightOf id
  queue : ∃ queue, d'.queue = some queue ∧ queue.capacity = config.sessionQueueMaxCapacity ∧
    queue.Bounded ∧ queue.items = (openQueue config.sessionQueueMaxCapacity d.queued).items

/-- A queue that keeps its bound is not cut. -/
lemma openQueue_items {queue : BoundedQueue MqttMessage} (hb : queue.Bounded) :
    (openQueue queue.capacity queue.items).items = queue.items := by
  refine if_neg fun hover => ?_
  have := hb hover.1
  omega

/-- The constructor opens what is stored. -/
lemma continues_newPersistent (hk : (b.cacheService.data clientId).Keyed) (id : ℕ) :
    Continues b.cacheService.config (b.cacheService.data clientId)
      ((b.newPersistent clientId id).2.cacheService.data clientId) := by
  obtain ⟨-, -, -, hdata⟩ := @newPersistent_spec b clientId id
  rw [hdata]
  refine ⟨⟨_, rfl, fun key => ?_⟩, ⟨_, rfl, ?_, fun key => ?_⟩, ⟨_, rfl, rfl,
    openQueue_bounded _ _, rfl⟩⟩
  · show _ = (b.cacheService.awaitCache.get clientId).bind _
    simp only [CacheService.openAwait]
    cases b.cacheService.awaitCache.get clientId <;> rfl
  · intro key message hget
    simp only [CacheService.openInflight] at hget
    cases hstored : b.cacheService.inflightCache.get clientId with
    | none =>
        rw [hstored] at hget
        exact absurd hget (by simp [Inflights.get, BoundedIgniteMapUnsafe.create,
          BoundedIgniteMapUnsafe.get])
    | some stored =>
        rw [hstored] at hget
        exact hk stored hstored key message hget
  · show _ = (b.cacheService.inflightCache.get clientId).bind _
    simp only [CacheService.openInflight]
    cases b.cacheService.inflightCache.get clientId <;> rfl

/-- A persistent session is built over what it takes over, by a new wrapper or by the old one. -/
lemma Inv.buildWrapper (h : b.Inv) (hv : IdUtil.validateClientId clientId = true) {b₂ : Broker}
    (hconfig : b₂.cacheService.config = b.cacheService.config)
    (hdata : b₂.cacheService.data clientId = { b.inherited clientId false with
      session := some ⟨clientId, false, b.cacheService.thisNodeId⟩ }) :
    ∃ fields b₃, b₂.buildWrapper clientId b.endpoints.length false
        (b.cacheService.isPersistentSession clientId) (b.wrappers.get clientId) =
          (.persistent fields, b₃) ∧
      fields.thisClientId = clientId ∧ fields.endpoint = b.endpoints.length ∧
      SameElse b₂ b₃ clientId ∧ b₃.wrappers = b₂.wrappers ∧ b₃.endpoints = b₂.endpoints ∧
      (b₃.cacheService.data clientId).session = (b₂.cacheService.data clientId).session ∧
      (b₃.cacheService.data clientId).routers = (b₂.cacheService.data clientId).routers ∧
      Continues b.cacheService.config (b.inherited clientId false)
        (b₃.cacheService.data clientId) := by
  -- the old wrapper of a persistent session gets the new endpoint; otherwise a new wrapper is
  -- built over the stores
  by_cases hreuse : ∃ w, b.wrappers.get clientId = some w ∧
      b.cacheService.isPersistentSession clientId = true
  · obtain ⟨w, hget, hpers⟩ := hreuse
    have hl := (h.own clientId).live w hget
    have hinh : b.inherited clientId false = b.cacheService.data clientId := if_pos ⟨rfl, hpers⟩
    cases w with
    | transient fields queue inflights awaits =>
        exact absurd ((CacheService.isPersistentSession_iff hv).1 hpers) (hl.not_persistent rfl)
    | persistent fields =>
        obtain ⟨⟨awaits, ha⟩, ⟨inflights, hi⟩, queue, hq, hcap, hb⟩ := hl.opened rfl
        refine ⟨{ fields with endpoint := b.endpoints.length }, b₂, ?_, hl.client, rfl,
          SameElse.refl _ _, rfl, rfl, rfl, rfl, ?_⟩
        · simp [Broker.buildWrapper, hget, hpers, Wrapper.refreshEndpoint]
        · rw [hdata, hinh]
          refine ⟨⟨awaits, ha, fun id => ?_⟩, ⟨inflights, hi, (h.own clientId).keyed inflights hi,
            fun id => ?_⟩, ⟨queue, hq, hcap, hb, ?_⟩⟩
          · simp only [ClientData.awaitOf]
            rw [ha]
            rfl
          · simp only [ClientData.inflightOf]
            rw [hi]
            rfl
          · simp only [ClientData.queued]
            rw [hq, ← hcap]
            exact (openQueue_items hb).symm
  · have hbuild : b₂.buildWrapper clientId b.endpoints.length false
        (b.cacheService.isPersistentSession clientId) (b.wrappers.get clientId) =
        b₂.newPersistent clientId b.endpoints.length := by
      simp only [Broker.buildWrapper]
      rw [if_neg (by simp)]
      cases hget : b.wrappers.get clientId with
      | none => rfl
      | some w =>
          have hpers : b.cacheService.isPersistentSession clientId = false := by
            by_contra hp
            exact hreuse ⟨w, hget, by simpa using hp⟩
          simp [hpers]
    obtain ⟨hsame, hwrappers, hends, hdata₃⟩ :=
      @newPersistent_spec b₂ clientId b.endpoints.length
    -- what the teardown leaves is keyed, since it is empty or what was there before
    have hkeyed : (b₂.cacheService.data clientId).Keyed := by
      intro m hm
      rw [hdata] at hm
      simp only [inherited] at hm
      split_ifs at hm
      exact (h.own clientId).keyed m hm
    have hcont := continues_newPersistent hkeyed b.endpoints.length
    rw [hconfig, show b₂.cacheService.data clientId = _ from hdata] at hcont
    refine ⟨_, _, hbuild, rfl, rfl, hsame, hwrappers, hends, ?_, ?_, ?_⟩
    · have hsession := congrArg ClientData.session hdata₃
      exact hsession
    · have hrouters := congrArg ClientData.routers hdata₃
      exact hrouters
    · obtain ⟨ha, hi, hq⟩ := hcont
      exact ⟨ha, hi, hq⟩

/-- What a connect leaves of its client: a wrapper for the new connection, and the data of the new
session. -/
structure Connected (b : Broker) (clientId : Str) (cleanSession : Bool) (b' : Broker) : Prop where
  sameElse : SameElse (b.addEndpoint clientId cleanSession) b' clientId
  live : ∃ w, b'.wrappers.get clientId = some w ∧ b'.Live clientId w ∧
    w.endpoint = b.endpoints.length ∧ (w.kind = .transient ↔ cleanSession = true)
  keyed : (b'.cacheService.data clientId).Keyed
  clean : cleanSession = true → (b'.cacheService.data clientId).NoStores ∧
    (∀ topic, (b'.cacheService.data clientId).routers topic = none) ∧
    b'.wrappers.get clientId = some (b'.newTransient clientId b.endpoints.length)
  routers : ∀ topic, (b'.cacheService.data clientId).routers topic =
    ((b.inherited clientId cleanSession).routers topic).map fun router =>
      { router with nodeId := b.cacheService.thisNodeId }
  awaits : ∀ id, (b'.cacheService.data clientId).awaitOf id =
    (b.inherited clientId cleanSession).awaitOf id
  inflights : ∀ id, (b'.cacheService.data clientId).inflightOf id =
    ((b.inherited clientId cleanSession).inflightOf id).map PersistentSessionWrapper.retried
  queue : (b'.cacheService.data clientId).queued = (openQueue
    b.cacheService.config.sessionQueueMaxCapacity (b.inherited clientId cleanSession).queued).items

/-- A wrapper is live once it is put into the container, if it fits to the record and the
connection. -/
lemma live_putWrapper (hv : IdUtil.validateClientId clientId = true) {w : Wrapper} {n : ℕ}
    {cleanSession : Bool} (hf : SameElse (b.addEndpoint clientId cleanSession) b' clientId)
    (hn : n = b.endpoints.length) (hclient : w.fields.thisClientId = clientId)
    (hend : w.endpoint = n) (hkind : decide (w.kind = .transient) = cleanSession)
    (hsession : (b'.cacheService.data clientId).session =
      some ⟨clientId, cleanSession, b'.cacheService.thisNodeId⟩)
    (hopened : w.kind = .persistent → b'.Opened clientId) : b'.Live clientId w := by
  subst hn
  refine ⟨hv, hclient, by rw [hkind]; exact hsession, ?_, fun id flag hlt => ?_, hopened⟩
  · rw [hf.owner, owner_addEndpoint, if_pos hend, hkind]
  · rw [hend] at hlt
    rw [hf.owner, owner_addEndpoint, if_neg (by omega), owner_of_le (by omega)]
    simp

/-- The end of `handleAccept`: the wrapper is registered and the endpoint accepted. -/
lemma putWrapper_accept (hv : IdUtil.validateClientId clientId = true) (w : Wrapper) (id : ℕ) :
    SameElse b ((b.putWrapper clientId w).accept id) clientId ∧
      ((b.putWrapper clientId w).accept id).cacheService = b.cacheService ∧
      ((b.putWrapper clientId w).accept id).wrappers.get clientId = some w := by
  refine ⟨(sameElse_putWrapper hv w).trans (sameElse_accept id clientId), ?_, ?_⟩
  · rw [accept_cacheService, putWrapper_eq hv]
  · rw [accept_wrappers, putWrapper_eq hv]
    exact PlainMap.get_put_self _ _ _

lemma Inv.connect_clean (h : b.Inv) (hv : IdUtil.validateClientId clientId = true) :
    b.Connected clientId true (b.handleAccept clientId true).2 := by
  obtain ⟨hsame, -⟩ := h.tornDown_spec hv true
  have hdata := h.data_tornDown hv true
  set b₂ := b.tornDown clientId true with hb₂
  have hfst : ((b.addEndpoint clientId true).takeWrapper clientId true).1 =
      b.wrappers.get clientId := (takeWrapper_spec (b := b.addEndpoint clientId true) hv true).1
  have hresult : (b.handleAccept clientId true).2 = (b₂.putWrapper clientId
      (b₂.newTransient clientId b.endpoints.length)).accept b.endpoints.length := by
    show (((b.addEndpoint clientId true).openSession clientId b.endpoints.length true).accept
      b.endpoints.length) = _
    unfold openSession
    dsimp only
    rw [hfst]
    rfl
  have hinh : b.inherited clientId true = ⟨none, fun _ => none, none, none, none⟩ :=
    inherited_of_destroy (Or.inl rfl)
  rw [hinh] at hdata
  obtain ⟨hput, hcache, hwrapper⟩ := putWrapper_accept (b := b₂) hv
    (b₂.newTransient clientId b.endpoints.length) b.endpoints.length
  rw [← hresult] at hput hcache hwrapper
  have hsame' := hsame.trans hput
  refine ⟨hsame', ⟨_, hwrapper, ?_, rfl, by simp [newTransient, Wrapper.kind]⟩, ?_, fun _ => ⟨?_,
    fun topic => ?_, ?_⟩, fun topic => ?_, fun id => ?_, fun id => ?_, ?_⟩
  · refine live_putWrapper hv hsame' rfl rfl rfl rfl ?_ fun hkind => by cases hkind
    rw [hcache, hdata, hsame.cache.thisNodeId]
    rfl
  · rw [hcache, hdata]
    intro m hm
    cases hm
  · rw [hcache, hdata]
    exact ⟨rfl, rfl, rfl⟩
  · rw [hcache, hdata]
  · rw [hwrapper]
    simp only [newTransient]
    rw [hcache]
  · rw [hcache, hdata, hinh]
    rfl
  · rw [hcache, hdata, hinh]
    rfl
  · rw [hcache, hdata, hinh]
    rfl
  · rw [hcache, hdata, hinh]
    show ([] : List MqttMessage) = _
    simp [openQueue, ClientData.queued]

lemma Inv.connect_persistent (h : b.Inv) (hv : IdUtil.validateClientId clientId = true) :
    b.Connected clientId false (b.handleAccept clientId false).2 := by
  obtain ⟨hsame, hend⟩ := h.tornDown_spec hv false
  have hdata := h.data_tornDown hv false
  set b₂ := b.tornDown clientId false with hb₂
  have hfst : ((b.addEndpoint clientId false).takeWrapper clientId false).1 =
      b.wrappers.get clientId := (takeWrapper_spec (b := b.addEndpoint clientId false) hv false).1
  have hnode : b₂.cacheService.thisNodeId = b.cacheService.thisNodeId := hsame.cache.thisNodeId
  have hr : b₂.cacheService.routerCache.Consistent := hsame.cache.routers h.routers
  -- teardown, build, open, register: the brokers b₂, b₃ and b₄ are those in between
  obtain ⟨fields, b₃, hbuild, hclient, hfend, hsame₃, hwrappers₃, hends₃, hsession₃, hrouters₃,
    hcont⟩ := h.buildWrapper hv hsame.cache.config hdata
  obtain ⟨⟨awaits, ha, haget⟩, ⟨inflights, hi, hik, higet⟩, queue, hq, hcap, hb, hitems⟩ := hcont
  have hend₃ : b₃.endpoint fields.endpoint =
      some (MqttEndpoint.create b.endpoints.length clientId false) := by
    simp only [Broker.endpoint] at hend ⊢
    rw [hends₃, hfend, hend]
  obtain ⟨fields', b₄, inflights', hopen, hclient', hend', hsame₄, hwrappers₄, -, hik', higet',
    hdata₄⟩ := openWrapper_spec (hsame₃.cache.routers hr) hclient hend₃ rfl hq hi hik
  have hresult : (b.handleAccept clientId false).2 =
      (b₄.putWrapper clientId (.persistent fields')).accept b.endpoints.length := by
    show (((b.addEndpoint clientId false).openSession clientId b.endpoints.length false).accept
      b.endpoints.length) = _
    unfold openSession
    dsimp only
    simp only [tornDown] at hb₂
    rw [hfst, show (b.addEndpoint clientId false).cacheService.isPersistentSession clientId =
      b.cacheService.isPersistentSession clientId from rfl, ← hb₂, hbuild, hopen]
  have hsame' := (hsame.trans hsame₃).trans hsame₄
  obtain ⟨hput, hcache, hwrapper⟩ := putWrapper_accept (b := b₄) hv (.persistent fields')
    b.endpoints.length
  rw [← hresult] at hput hcache hwrapper
  have hsame'' := hsame'.trans hput
  refine ⟨hsame'', ⟨_, hwrapper, ?_, hend'.trans hfend, by simp [Wrapper.kind]⟩, ?_, by simp,
    fun topic => ?_, fun id => ?_, fun id => ?_, ?_⟩
  · refine live_putWrapper hv hsame'' rfl hclient' (hend'.trans hfend) rfl ?_ fun _ => ?_
    · rw [hcache, hdata₄, hsame'.cache.thisNodeId]
      exact hsession₃.trans (by rw [hdata]; rfl)
    · refine ⟨⟨awaits, ?_⟩, ⟨inflights', ?_⟩, queue, ?_, ?_, hb⟩
      · rw [hcache, hdata₄]
        exact ha
      · rw [hcache, hdata₄]
      · rw [hcache, hdata₄]
        exact hq
      · rw [hcache, hsame'.cache.config]
        exact hcap
  · rw [hcache, hdata₄]
    intro m hm
    obtain rfl := Option.some.inj hm
    exact hik'
  · rw [hcache, hdata₄, hrouters₃, hdata, hsame₃.cache.thisNodeId, hnode]
  · rw [hcache, hdata₄]
    rw [ClientData.awaitOf]
    dsimp only
    rw [ha]
    exact haget id
  · rw [hcache, hdata₄, ← higet id]
    exact higet' id
  · rw [hcache, hdata₄]
    rw [ClientData.queued]
    dsimp only
    rw [hq]
    exact hitems

theorem Inv.connect (h : b.Inv) (hv : IdUtil.validateClientId clientId = true)
    (cleanSession : Bool) :
    b.Connected clientId cleanSession (b.handleAccept clientId cleanSession).2 := by
  cases cleanSession with
  | true => exact h.connect_clean hv
  | false => exact h.connect_persistent hv

lemma Inv.handleAccept (h : b.Inv) (hv : IdUtil.validateClientId clientId = true)
    (cleanSession : Bool) : (b.handleAccept clientId cleanSession).2.Inv := by
  have hc := h.connect hv cleanSession
  obtain ⟨w, hget, hl, -, hkind⟩ := hc.live
  refine ⟨hc.sameElse.cache.routers h.routers, fun c => ?_⟩
  by_cases hne : c = clientId
  · subst hne
    refine ⟨fun hnot => ?_, hc.keyed, fun w' hw' => ?_⟩
    · by_cases hclean : cleanSession = true
      · exact (hc.clean hclean).1
      · refine absurd ⟨_, hl.session, ?_⟩ hnot
        simpa [hkind] using hclean
    · obtain rfl := Option.some.inj (hget.symm.trans hw')
      exact hl
  · exact ((h.own c).addEndpoint hne cleanSession).frame hc.sameElse hne

/-! ### Runs -/

lemma Inv.step (h : b.Inv) (op : Op) : (b.step op).Inv := by
  cases op with
  | connect clientId cleanSession =>
      show (if IdUtil.validateClientId clientId then _ else b).Inv
      split_ifs with hv
      · exact h.handleAccept hv cleanSession
      · exact h
  | close id => exact (h.disconnect id).closeSession id
  | subscribeTopic clientId topic qos => exact h.subscribeTopic clientId topic qos
  | unsubscribeTopic clientId topic => exact h.unsubscribeTopic clientId topic
  | publish clientId message qos => exact h.handleLocalPublishMessage clientId message qos
  | receiveQos2 clientId awaitMessage => exact h.receiveQos2Message clientId awaitMessage

/-- The broker after a sequence of operations. -/
def run (b : Broker) (ops : List Op) : Broker := ops.foldl step b

lemma Inv.run (h : b.Inv) (ops : List Op) : (b.run ops).Inv := by
  induction ops generalizing b with
  | nil => exact h
  | cons op ops ih => exact ih (h.step op)

/-! ### Results -/

/-- A registered wrapper has a session record of its kind, and the latest connection. -/
def Registered (b : Broker) (clientId : Str) (w : Wrapper) : Prop :=
  (∃ session, b.cacheService.getSession clientId = some session ∧
    (session.cleanSession = true ↔ w.kind = .transient)) ∧ b.MostRecent clientId w.endpoint

/-- The client has a new transient wrapper, and nothing is stored of it but the record. -/
def StartsClean (b : Broker) (clientId : Str) : Prop :=
  (∀ topic, (b.cacheService.data clientId).routers topic = none) ∧
    (b.cacheService.data clientId).queue = none ∧
    (b.cacheService.data clientId).inflights = none ∧
    (b.cacheService.data clientId).awaits = none ∧
    ∃ fields, b.getWrapper clientId = some (.transient fields
      ⟨b.cacheService.config.sessionQueueMaxCapacity, []⟩ ∅ ∅)

/-- The newest messages that fit into a queue; a capacity that is not positive is no bound. -/
def newest (capacity : ℤ) (messages : List MqttMessage) : List MqttMessage :=
  if capacity > 0 then messages.drop (messages.length - capacity.toNat) else messages

/-- The client goes on with its persistent session: the same filters with the same QoS, the queued
messages in order as far as they fit in, the same await messages, and the same inflight messages
but for the count of their retries. -/
def Resumes (b b' : Broker) (clientId : Str) : Prop :=
  (∀ topic, ((b'.cacheService.data clientId).routers topic).map MqttRouter.qos =
      ((b.cacheService.data clientId).routers topic).map MqttRouter.qos) ∧
    (b'.cacheService.data clientId).queued = newest b.cacheService.config.sessionQueueMaxCapacity
      (b.cacheService.data clientId).queued ∧
    (∀ id, (b'.cacheService.data clientId).awaitOf id =
      (b.cacheService.data clientId).awaitOf id) ∧
    ∀ id, (b'.cacheService.data clientId).inflightOf id =
      ((b.cacheService.data clientId).inflightOf id).map fun message =>
        { message with retry := message.retry + 1 }

/-- What closing the connection `id` of a client does. -/
def Closes (b b' : Broker) (clientId : Str) (id : ℕ) : Prop :=
  (∀ w, b.getWrapper clientId = some w → w.endpoint = id → b'.getWrapper clientId = none ∧
    if w.kind = .transient then
      (b'.cacheService.data clientId).session = none ∧
        ∀ topic, (b'.cacheService.data clientId).routers topic = none
    else b'.cacheService.data clientId = b.cacheService.data clientId) ∧
  ((∀ w, b.getWrapper clientId = some w → w.endpoint ≠ id) →
    b'.wrappers = b.wrappers ∧ b'.cacheService = b.cacheService)

lemma openQueue_eq_newest (capacity : ℤ) (messages : List MqttMessage) :
    (openQueue capacity messages).items = newest capacity messages := by
  simp only [openQueue, newest]
  by_cases hpos : capacity > 0
  · rw [if_pos hpos]
    by_cases hover : (messages.length : ℤ) > capacity
    · exact if_pos ⟨hpos, hover⟩
    · rw [show messages.length - capacity.toNat = 0 by omega]
      exact if_neg fun h => hover h.2
  · rw [if_neg hpos]
    exact if_neg fun h => hpos h.1

lemma Inv.registered (h : b.Inv) {w : Wrapper} (hget : b.getWrapper clientId = some w) :
    b.Registered clientId w := by
  have hl := h.live_of_getWrapper hget
  exact ⟨⟨_, (CacheService.getSession_eq hl.valid).trans hl.session, by simp⟩, ⟨_, hl.owner⟩,
    hl.latest⟩

lemma Connected.startsClean (h : b.Connected clientId true b')
    (hv : IdUtil.validateClientId clientId = true) : b'.StartsClean clientId := by
  obtain ⟨⟨ha, hi, hq⟩, hrouters, hw⟩ := h.clean rfl
  refine ⟨hrouters, hq, hi, ha, ⟨clientId, b.endpoints.length, [], .empty⟩, ?_⟩
  rw [getWrapper_eq hv]
  exact hw

lemma Connected.resumes (h : b.Connected clientId false b')
    (hpers : b.cacheService.isPersistentSession clientId = true) : b.Resumes b' clientId := by
  have hinh : b.inherited clientId false = b.cacheService.data clientId := if_pos ⟨rfl, hpers⟩
  have hrouters := h.routers
  have hqueue := h.queue
  have hawaits := h.awaits
  have hinflights := h.inflights
  rw [hinh] at hrouters hqueue hawaits hinflights
  refine ⟨fun topic => ?_, ?_, hawaits, hinflights⟩
  · rw [hrouters topic, Option.map_map]
    rfl
  · rw [hqueue, openQueue_eq_newest]

/-- **The lifecycle of sessions.**  In every state that operations on any clients lead to:
(a) a registered wrapper has a record of its kind and the latest connection of its client;
(b) a clean connect starts from nothing; (c) another connect goes on with a stored persistent
session; (d) a close takes the wrapper of the connection, with a clean session its record and
routers as well, and changes nothing if no registered wrapper holds the connection. -/
theorem lifecycle_run (b : Broker) (hb : b.Restarted) (ops : List Op) :
    (∀ clientId w, (b.run ops).getWrapper clientId = some w →
      (b.run ops).Registered clientId w) ∧
    (∀ clientId, IdUtil.validateClientId clientId = true →
      ((b.run ops).step (.connect clientId true)).StartsClean clientId) ∧
    (∀ clientId, (b.run ops).cacheService.isPersistentSession clientId = true →
      (b.run ops).Resumes ((b.run ops).step (.connect clientId false)) clientId) ∧
    ∀ id endpoint, (b.run ops).endpoint id = some endpoint →
      (b.run ops).Closes ((b.run ops).step (.close id)) endpoint.clientIdentifier id := by
  have h := hb.inv.run ops
  refine ⟨fun c w hget => h.registered hget, fun c hv => ?_, fun c hpers => ?_,
    fun id endpoint hend => ⟨fun w hget hid => ?_, fun hnot => ?_⟩⟩
  · show (if IdUtil.validateClientId c then _ else _ : Broker).StartsClean c
    rw [if_pos hv]
    exact (h.connect hv true).startsClean hv
  · have hv : IdUtil.validateClientId c = true := by
      by_contra hv
      rw [CacheService.isPersistentSession, CacheService.getSession, if_pos (by simpa using hv)]
        at hpers
      exact absurd hpers (by simp)
    show (b.run ops).Resumes (if IdUtil.validateClientId c then _ else _ : Broker) c
    rw [if_pos hv]
    exact (h.connect hv false).resumes hpers
  · subst hid
    obtain ⟨-, hnone, hdata⟩ := h.close_current hget
    refine ⟨hnone, ?_⟩
    split_ifs with hkind
    · rw [hdata, if_pos hkind]
      exact ⟨rfl, fun topic => rfl⟩
    · rw [hdata, if_neg hkind]
  · exact (close_superseded hend hnot).symm

/-- A broker that has nothing stored. -/
def initial (config : Config) (thisNodeId : UUID) : Broker :=
  ⟨⟨config, thisNodeId, ∅, RouterCache.empty, ∅, ∅, ∅⟩, [], ∅⟩

lemma restarted_initial (config : Config) (thisNodeId : UUID) :
    (initial config thisNodeId).Restarted := by
  refine ⟨rfl, rfl, RouterCache.consistent_empty, fun c _ => ⟨?_, ?_, ?_⟩, fun c m hm => ?_⟩
  · exact PlainMap.get_empty c
  · exact PlainMap.get_empty c
  · exact PlainMap.get_empty c
  · exact absurd ((PlainMap.get_empty c).symm.trans hm) (by simp)

/-- The first connection of a client subscribes and ends, and a message comes in. -/
def offlineOps : List Op :=
  [.connect ['c'] false, .subscribeTopic ['c'] ['t'] 1, .close 0,
    .publish ['c'] sampleMessage .atLeastOnce]

theorem lifecycle_run_offline :
    ((initial sampleConfig 1).run offlineOps).Resumes
      (((initial sampleConfig 1).run offlineOps).step (.connect ['c'] false)) ['c'] :=
  (lifecycle_run (initial sampleConfig 1) (restarted_initial sampleConfig 1) offlineOps).2.2.1 ['c']
    (by decide)

/-! ### The session-present flag -/

/-- After `openSession` the record is that of the new session. -/
lemma openSession_isPersistent (h : b.Inv) (hv : IdUtil.validateClientId clientId = true) :
    (b.handleAccept clientId false).1 = true := by
  obtain ⟨w, -, hl, -, hkind⟩ := (h.connect hv false).live
  have hpers : (b.handleAccept clientId false).2.cacheService.isPersistentSession clientId = true :=
    (CacheService.isPersistentSession_iff hv).2 ⟨_, hl.session, by simpa using hkind⟩
  simp only [handleAccept] at hpers ⊢
  rw [accept_cacheService] at hpers
  exact hpers

/-- **The session-present flag.**  In every reachable state a CONNECT without cleanSession is
answered by the right flag iff the client had a persistent session before. -/
theorem sessionPresent_iff (b : Broker) (hb : b.Restarted) (ops : List Op) (clientId : Str)
    (hv : IdUtil.validateClientId clientId = true) :
    (((b.run ops).handleAccept clientId false).1 = true ↔
        ((b.run ops).cacheService.data clientId).Persistent) ↔
      ((b.run ops).cacheService.data clientId).Persistent := by
  have hflag := openSession_isPersistent (hb.inv.run ops) hv
  rw [hflag]
  simp

theorem sessionPresent_iff_offline :
    (((initial sampleConfig 1).run offlineOps).handleAccept ['c'] false).1 = true ↔
      (((initial sampleConfig 1).run offlineOps).cacheService.data ['c']).Persistent :=
  (sessionPresent_iff (initial sampleConfig 1) (restarted_initial sampleConfig 1) offlineOps ['c']
    (by decide)).2 ((CacheService.isPersistentSession_iff (by decide)).1 (by decide))

/-- The first CONNECT of a client is told that a session is present. -/
theorem not_sessionPresent :
    ¬(((initial sampleConfig 1).handleAccept ['c'] false).1 = true ↔
      ((initial sampleConfig 1).cacheService.data ['c']).Persistent) := by
  intro h
  obtain ⟨session, hsession, -⟩ := h.1 (by decide)
  have hnone : ((initial sampleConfig 1).cacheService.data ['c']).session = none :=
    PlainMap.get_empty (V := MqttSession) ['c']
  rw [hnone] at hsession
  exact absurd hsession (by simp)

end Broker

end Stuart
