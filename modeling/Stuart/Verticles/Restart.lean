/-
The starts of a standalone broker.

What is stored is on disk, and a broker that starts finds it again: the session records, the
routers, and the queue, inflight and await messages.  Connections, wrappers and the closures that
have not run are gone.  `initNode` asks for the records of clean sessions and starts a
`DestroySessionClosure` for each of them; clients can connect before these have run.  A stored
await message expires some time after it was stored, whether the broker was stopped in between or
not.

The invariant says what is left of clean sessions: a router is stored for a client with a record
only, and the record of a clean session belongs to a wrapper or to a closure.
-/
import Stuart.Verticles.Handover
import Stuart.Services.OfflinePublish
import Stuart.Services.SessionCleanup
import Mathlib.Logic.Function.Basic

namespace Stuart

open List Lib

namespace Broker

/-! ### Records, routers and wrappers -/

/-- The record of a client stays, it has a wrapper if it had one, and without a record its routers
stay as well. -/
structure Stays (b b' : Broker) (clientId : Str) : Prop where
  thisNodeId : b'.cacheService.thisNodeId = b.cacheService.thisNodeId
  session : (b'.cacheService.data clientId).session = (b.cacheService.data clientId).session
  routers : (b.cacheService.data clientId).session = none →
    (b'.cacheService.data clientId).routers = (b.cacheService.data clientId).routers
  wrapper : b'.wrappers.get clientId = none ↔ b.wrappers.get clientId = none

variable {b b' b'' : Broker} {clientId c : Str}

lemma Stays.refl (b : Broker) (c : Str) : Stays b b c := ⟨rfl, rfl, fun _ => rfl, Iff.rfl⟩

lemma Stays.trans (h : Stays b b' c) (h' : Stays b' b'' c) : Stays b b'' c where
  thisNodeId := h'.thisNodeId.trans h.thisNodeId
  session := h'.session.trans h.session
  routers := fun hnone => (h'.routers (h.session.trans hnone)).trans (h.routers hnone)
  wrapper := h'.wrapper.trans h.wrapper

/-- The stored data of a client stay. -/
lemma Stays.of_data (hnode : b'.cacheService.thisNodeId = b.cacheService.thisNodeId)
    (hdata : b'.cacheService.data c = b.cacheService.data c)
    (hw : b'.wrappers.get c = b.wrappers.get c) : Stays b b' c :=
  ⟨hnode, congrArg ClientData.session hdata, fun _ => congrArg ClientData.routers hdata,
    by rw [hw]⟩

lemma SameElse.stays (h : SameElse b b' clientId) (hne : c ≠ clientId) : Stays b b' c :=
  .of_data h.cache.thisNodeId (h.cache.data c hne) (h.wrappers c hne)

/-- Only the client of an operation has to be looked at. -/
lemma SameElse.stays_of_self (h : SameElse b b' clientId) (hself : Stays b b' clientId) (c : Str) :
    Stays b b' c := by
  by_cases hne : c = clientId
  · rw [hne]
    exact hself
  · exact h.stays hne

/-- Another wrapper is put where one is registered. -/
lemma stays_putWrapper {v : Wrapper} (hget : b.getWrapper clientId = some v) (w : Wrapper) :
    Stays b (b.putWrapper clientId w) clientId := by
  have hv := valid_of_getWrapper hget
  rw [getWrapper_eq hv] at hget
  rw [putWrapper_eq hv]
  exact ⟨rfl, rfl, fun _ => rfl, iff_of_false (by simp) (by simp [hget])⟩

/-- The routers of a client with a wrapper may change. -/
lemma Inv.stays_routers (h : b.Inv) {w : Wrapper} (hget : b.getWrapper clientId = some w)
    {cacheService : CacheService} (hnode : cacheService.thisNodeId = b.cacheService.thisNodeId)
    (hsession : (cacheService.data clientId).session = (b.cacheService.data clientId).session) :
    Stays b (b.withCache cacheService) clientId := by
  refine ⟨hnode, hsession, fun hnone => ?_, Iff.rfl⟩
  rw [(h.live_of_getWrapper hget).session] at hnone
  cases hnone

lemma Inv.stays_subscribeTopic (h : b.Inv) (clientId topic : Str) (qos : ℤ) :
    Stays b (b.subscribeTopic clientId topic qos) clientId := by
  simp only [Broker.subscribeTopic]
  cases hget : b.getWrapper clientId with
  | none => exact .refl b clientId
  | some w => exact h.stays_routers hget rfl rfl

lemma Inv.stays_unsubscribeTopic (h : b.Inv) (clientId topic : Str) :
    Stays b (b.unsubscribeTopic clientId topic) clientId := by
  simp only [Broker.unsubscribeTopic]
  cases hget : b.getWrapper clientId with
  | none => exact .refl b clientId
  | some w => exact h.stays_routers hget rfl rfl

/-- A method of the registered wrapper works on queue and inflight messages. -/
lemma Inv.stays_onRegistered (h : b.Inv) (clientId : Str)
    {f : ∀ {kind}, SessionWrapper kind → SessionWrapper kind} :
    Stays b (b.onRegistered clientId f) clientId := by
  cases hget : b.getWrapper clientId with
  | none =>
      simp only [Broker.onRegistered, hget]
      exact .refl b clientId
  | some w =>
      cases w with
      | transient fields queue inflights awaits =>
          obtain ⟨endpoint, -, hon⟩ := h.onRegistered_of_transient (f := f) hget
          rw [hon]
          have hset (endpoint : MqttEndpoint) :
              Stays b (b.setEndpoint fields.endpoint endpoint) clientId :=
            ⟨rfl, rfl, fun _ => rfl, Iff.rfl⟩
          refine (hset _).trans
            (stays_putWrapper (v := .transient fields queue inflights awaits) ?_ _)
          exact hget
      | persistent fields =>
          obtain ⟨endpoint, queue, inflights, -, -, -, -, hon⟩ :=
            h.onRegistered_of_persistent (f := f) hget
          rw [hon]
          refine Stays.trans ?_ (stays_putWrapper (v := .persistent fields) ?_ _)
          · exact ⟨rfl, rfl, fun _ => rfl, Iff.rfl⟩
          · exact hget

lemma Inv.stays_handleLocalPublishMessage (h : b.Inv) (clientId : Str) (message : MqttMessage)
    (qos : MqttQoS) :
    Stays b (b.handleLocalPublishMessage clientId message qos) clientId := by
  simp only [Broker.handleLocalPublishMessage]
  cases hget : b.getWrapper clientId with
  | some w => exact h.stays_onRegistered clientId
  | none =>
      dsimp only
      split_ifs with hpers
      · refine Stays.trans ?_ ((h.enqueue hget hpers message qos).stays_onRegistered clientId)
        -- the offer changes at most the queue
        have hnode :=
          (@CacheService.sameElse_enqueue b.cacheService clientId message qos).thisNodeId
        rcases @CacheService.data_enqueue b.cacheService clientId message qos clientId with
          hdata | ⟨-, queue, -, hdata⟩
        · exact .of_data hnode hdata rfl
        · exact ⟨hnode, (congrArg ClientData.session hdata :),
            fun _ => (congrArg ClientData.routers hdata :), Iff.rfl⟩
      · exact .refl b clientId

lemma stays_receiveQos2Message (clientId : Str) (awaitMessage : MqttAwaitMessage) :
    Stays b (b.receiveQos2Message clientId awaitMessage) clientId := by
  simp only [Broker.receiveQos2Message]
  cases hget : b.getWrapper clientId with
  | none => exact .refl b clientId
  | some w =>
      cases w with
      | transient fields queue inflights awaits =>
          exact stays_putWrapper hget _
      | persistent fields =>
          dsimp only
          cases b.cacheService.awaitCache.get fields.thisClientId with
          | none => exact .refl b clientId
          | some awaits => exact ⟨rfl, rfl, fun _ => rfl, Iff.rfl⟩

lemma stays_releaseQos2Message (clientId : Str) (messageId : ℤ) :
    Stays b (b.releaseQos2Message clientId messageId).2 clientId := by
  simp only [Broker.releaseQos2Message]
  cases hget : b.getWrapper clientId with
  | none => exact .refl b clientId
  | some w =>
      cases w with
      | transient fields queue inflights awaits =>
          exact stays_putWrapper hget _
      | persistent fields =>
          dsimp only
          cases b.cacheService.awaitCache.get fields.thisClientId with
          | none => exact .refl b clientId
          | some awaits => exact ⟨rfl, rfl, fun _ => rfl, Iff.rfl⟩

/-- An operation leaves the record of the client that it names, unless the client connects. -/
lemma Inv.stays_perform (h : b.Inv) {operation : Operation}
    (hclient : operation.client = some clientId) (hnot : ¬operation.Connects clientId) (c : Str) :
    Stays b (b.perform operation) c := by
  refine (h.sameElse_perform hclient hnot).stays_of_self ?_ c
  cases operation with
  | call c method =>
      obtain rfl := Option.some.inj hclient
      exact h.stays_onRegistered c
  | releaseQos2 c messageId =>
      obtain rfl := Option.some.inj hclient
      exact stays_releaseQos2Message c messageId
  | op op =>
      cases op with
      | connect c cleanSession =>
          obtain rfl := Option.some.inj hclient
          have hv : ¬IdUtil.validateClientId c = true := fun hv => hnot ⟨hv, cleanSession, rfl⟩
          have hstep : b.perform (.op (.connect c cleanSession)) = b := if_neg hv
          rw [hstep]
          exact .refl b c
      | close id => cases hclient
      | subscribeTopic c topic qos =>
          obtain rfl := Option.some.inj hclient
          exact h.stays_subscribeTopic c topic qos
      | unsubscribeTopic c topic =>
          obtain rfl := Option.some.inj hclient
          exact h.stays_unsubscribeTopic c topic
      | publish c message qos =>
          obtain rfl := Option.some.inj hclient
          exact h.stays_handleLocalPublishMessage c message qos
      | receiveQos2 c awaitMessage =>
          obtain rfl := Option.some.inj hclient
          exact stays_receiveQos2Message c awaitMessage

/-- The wrapper of a client belongs to its latest connection. -/
lemma Live.endpoint_eq {w w' : Wrapper} (h : b.Live c w) (h' : b'.Live c w')
    (howner : ∀ id, b'.owner id = b.owner id) : w'.endpoint = w.endpoint := by
  rcases Nat.lt_trichotomy w'.endpoint w.endpoint with hlt | heq | hlt
  · exact absurd ((howner _).trans h.owner) (h'.latest _ _ hlt)
  · exact heq
  · exact absurd ((howner _).symm.trans h'.owner) (h.latest _ _ hlt)

/-- Clients keep their connections in an operation that neither opens nor ends one. -/
lemma Inv.endpoint_perform (h : b.Inv) {operation : Operation}
    (hclient : operation.client = some clientId) (hnot : ¬operation.Connects clientId) (c : Str) :
    ((b.perform operation).wrappers.get c).map Wrapper.endpoint =
      (b.wrappers.get c).map Wrapper.endpoint := by
  have hstays := (h.stays_perform hclient hnot c).wrapper
  cases hget : b.wrappers.get c with
  | none => rw [hstays.2 hget]
  | some w =>
      obtain ⟨w', hget'⟩ := Option.ne_none_iff_exists'.1
        (fun hnone => by cases hget.symm.trans (hstays.1 hnone))
      rw [hget']
      exact congrArg some (((h.own c).live w hget).endpoint_eq
        (((h.perform operation).own c).live w' hget') (h.sameElse_perform hclient hnot).owner)

/-- Without a wrapper, the requests of a client do nothing. -/
lemma perform_of_none (hnone : b.getWrapper clientId = none) {operation : Operation}
    (hclient : operation.client = some clientId)
    (hconnect : ∀ cleanSession, operation ≠ .op (.connect clientId cleanSession))
    (hpublish : ∀ message qos, operation ≠ .op (.publish clientId message qos)) :
    b.perform operation = b := by
  cases operation with
  | call c method =>
      obtain rfl := Option.some.inj hclient
      simp only [Broker.perform, Broker.onRegistered, hnone]
  | releaseQos2 c messageId =>
      obtain rfl := Option.some.inj hclient
      simp only [Broker.perform, Broker.releaseQos2Message, hnone]
  | op op =>
      cases op with
      | connect c cleanSession =>
          obtain rfl := Option.some.inj hclient
          exact absurd rfl (hconnect cleanSession)
      | close id => cases hclient
      | subscribeTopic c topic qos =>
          obtain rfl := Option.some.inj hclient
          simp only [Broker.perform, Broker.step, Broker.subscribeTopic, hnone]
      | unsubscribeTopic c topic =>
          obtain rfl := Option.some.inj hclient
          simp only [Broker.perform, Broker.step, Broker.unsubscribeTopic, hnone]
      | publish c message qos =>
          obtain rfl := Option.some.inj hclient
          exact absurd rfl (hpublish message qos)
      | receiveQos2 c awaitMessage =>
          obtain rfl := Option.some.inj hclient
          simp only [Broker.perform, Broker.step, Broker.receiveQos2Message, hnone]

lemma eq_close_of_client {operation : Operation} (h : operation.client = none) :
    ∃ id, operation = .op (.close id) := by
  cases operation with
  | op op =>
      cases op with
      | close id => exact ⟨id, rfl⟩
      | _ => cases h
  | call clientId method => cases h
  | releaseQos2 clientId messageId => cases h

lemma perform_connect (hv : IdUtil.validateClientId clientId = true) (cleanSession : Bool) :
    b.perform (.op (.connect clientId cleanSession)) = (b.handleAccept clientId cleanSession).2 :=
  if_pos hv

/-- What an operation does to the record of a client: nothing, unless the client connects or its
latest connection ends. -/
lemma Inv.perform_cases (h : b.Inv) (operation : Operation) (c : Str) :
    Stays b (b.perform operation) c ∧ ¬operation.Connects c ∨
      (∃ cleanSession, operation = .op (.connect c cleanSession) ∧
        b.Connected c cleanSession (b.perform operation)) ∨
      ∃ w, b.getWrapper c = some w ∧ operation = .op (.close w.endpoint) := by
  cases hclient : operation.client with
  | some clientId =>
      by_cases hconn : operation.Connects clientId
      · obtain ⟨hv, cleanSession, rfl⟩ := hconn
        have hc := h.connect hv cleanSession
        rw [perform_connect hv]
        by_cases hne : c = clientId
        · subst hne
          exact Or.inr (Or.inl ⟨cleanSession, rfl, hc⟩)
        · obtain ⟨hnode, hsession, hrouters, hwrapper⟩ := hc.sameElse.stays hne
          refine Or.inl ⟨⟨hnode, hsession, hrouters, hwrapper⟩, ?_⟩
          rintro ⟨-, flag, heq⟩
          exact hne (Op.connect.inj (Operation.op.inj heq)).1.symm
      · refine Or.inl ⟨h.stays_perform hclient hconn c, ?_⟩
        rintro ⟨hv, flag, rfl⟩
        obtain rfl := Option.some.inj hclient
        exact hconn ⟨hv, flag, rfl⟩
  | none =>
      obtain ⟨id, rfl⟩ := eq_close_of_client hclient
      have hnot : ¬(Operation.op (.close id)).Connects c := fun hconn => by
        obtain ⟨-, flag, heq⟩ := hconn
        cases heq
      cases hend : b.endpoint id with
      | none =>
          have hstep : b.perform (.op (.close id)) = b := step_close_of_none hend
          rw [hstep]
          exact Or.inl ⟨.refl b c, hnot⟩
      | some endpoint =>
          by_cases hheld : ∃ w, b.getWrapper endpoint.clientIdentifier = some w ∧ w.endpoint = id
          · obtain ⟨w, hget, rfl⟩ := hheld
            by_cases hne : c = endpoint.clientIdentifier
            · exact Or.inr (Or.inr ⟨w, by rw [hne]; exact hget, rfl⟩)
            · exact Or.inl ⟨(h.close_current hget).1.stays hne, hnot⟩
          · obtain ⟨hcache, hwrappers⟩ := close_superseded hend fun w hget hid =>
              hheld ⟨w, hget, hid⟩
            refine Or.inl ⟨?_, hnot⟩
            exact .of_data (congrArg _ hcache) (congrArg (CacheService.data · c) hcache)
              (congrArg (PlainMap.get · c) hwrappers)

end Broker

namespace Restart

open SessionCleanup (Session)

/-! ### A node from start to start -/

structure Node where
  broker : Broker
  /-- when the stored record of a client was made -/
  createTime : Str → ℤ
  /-- the closures that have not run yet, by the records they were started for -/
  closures : List Session

namespace Node

/-- What is stored of a client. -/
def data (n : Node) (clientId : Str) : ClientData := n.broker.cacheService.data clientId

def getSession (n : Node) (clientId : Str) : Option Session :=
  (n.broker.cacheService.getSession clientId).map fun session => ⟨session, n.createTime clientId⟩

/-- `sessionCache.get(null, true)`. -/
def transientSessions (n : Node) : List Session :=
  (n.broker.cacheService.sessionCache.values.filter MqttSession.cleanSession).map fun session =>
    ⟨session, n.createTime session.clientId⟩

def withCache (n : Node) (cacheService : CacheService) : Node :=
  { n with broker := n.broker.withCache cacheService }

/-- What a closure does to the session it was started for. -/
def destroy (s : CacheService) (session : Session) : CacheService :=
  (if session.cleanSession then s.destroyTransientSession session.clientId
    else s.destroyPersistentSession session.clientId).deleteSession session.clientId

/-- `DestroySessionClosure.apply`; an operation that takes the lock has given it back. -/
def apply (n : Node) (session : Session) : Node :=
  match n.getSession session.clientId with
  | some current =>
      if current.Matches session then n.withCache (destroy n.broker.cacheService session) else n
  | none => n.withCache (destroy n.broker.cacheService session)

/-- The node id of a start is a new one. -/
def Fresh (n : Node) (nodeId : UUID) : Prop :=
  nodeId ≠ n.broker.cacheService.thisNodeId ∧
    ∀ session ∈ n.broker.cacheService.sessionCache.values, session.nodeId ≠ nodeId

instance decidableFresh (n : Node) (nodeId : UUID) : Decidable (n.Fresh nodeId) :=
  inferInstanceAs (Decidable (_ ∧ _))

/-- The end of the process at any time, and the next `start`, with `initNode`. -/
def start (n : Node) (config : Config) (thisNodeId : UUID) : Node :=
  { n with
    broker := ⟨{ n.broker.cacheService with config, thisNodeId }, [], ∅⟩
    closures := n.transientSessions }

/-- An await message in the await cache has expired. -/
def expire (n : Node) (clientId : Str) (messageId : ℤ) : Node :=
  match n.broker.cacheService.awaitCache.get clientId with
  | none => n
  | some awaits => n.withCache { n.broker.cacheService with
      awaitCache := n.broker.cacheService.awaitCache.put clientId (awaits.remove messageId).2 }

/-- A node that has nothing stored. -/
def initial (config : Config) (thisNodeId : UUID) : Node :=
  ⟨.initial config thisNodeId, fun _ => 0, []⟩

end Node

inductive Action where
  /-- an operation, and the time at which it runs -/
  | operate (operation : Broker.Operation) (now : ℤ)
  | start (config : Config) (thisNodeId : UUID)
  /-- one of the closures runs -/
  | apply (index : ℕ)
  /-- an await message of a client that is not connected expires; one of a connected client goes as
  with its PUBREL -/
  | expire (clientId : Str) (messageId : ℤ)

/-- The creation times after an operation: a connection saves a new record. -/
def createTimes (createTime : Str → ℤ) (now : ℤ) : Broker.Operation → Str → ℤ
  | .op (.connect clientId _) =>
      if IdUtil.validateClientId clientId then Function.update createTime clientId now
      else createTime
  | _ => createTime

def step (n : Node) : Action → Option Node
  | .operate operation now =>
      some { n with
        broker := n.broker.perform operation
        createTime := createTimes n.createTime now operation }
  | .start config thisNodeId =>
      if n.Fresh thisNodeId then some (n.start config thisNodeId) else none
  | .apply index => n.closures[index]?.map fun session =>
      { n.apply session with closures := n.closures.eraseIdx index }
  | .expire clientId messageId =>
      if n.broker.getWrapper clientId = none then some (n.expire clientId messageId) else none

/-! ### The invariant -/

/-- Nothing is left of a session that has ended. -/
structure Tidy (n : Node) : Prop where
  inv : n.broker.Inv
  keyed : ∀ clientId session, (n.data clientId).session = some session →
    session.clientId = clientId ∧ IdUtil.validateClientId clientId = true
  routers : ∀ clientId, (n.data clientId).session = none →
    ∀ topic, (n.data clientId).routers topic = none
  transients : ∀ clientId session, (n.data clientId).session = some session →
    session.cleanSession = true → n.broker.wrappers.get clientId ≠ none ∨
      ⟨session, n.createTime clientId⟩ ∈ n.closures
  closures : ∀ session ∈ n.closures, session.cleanSession = true ∧
    IdUtil.validateClientId session.clientId = true ∧
    session.nodeId ≠ n.broker.cacheService.thisNodeId
  /-- of such a client only the record of an earlier start can be the one of the closure -/
  stale : ∀ session ∈ n.closures, ∀ record, (n.data session.clientId).session = some record →
    record.nodeId ≠ n.broker.cacheService.thisNodeId → record.cleanSession = true

variable {n n' : Node} {c : Str}

lemma createTimes_of_not_connects {operation : Broker.Operation} (h : ¬operation.Connects c)
    (createTime : Str → ℤ) (now : ℤ) : createTimes createTime now operation c = createTime c := by
  cases operation with
  | op op =>
      cases op with
      | connect clientId cleanSession =>
          simp only [createTimes]
          split_ifs with hv
          · refine Function.update_of_ne ?_ now createTime
            rintro rfl
            exact h ⟨hv, cleanSession, rfl⟩
          · rfl
      | _ => rfl
  | call clientId method => rfl
  | releaseQos2 clientId messageId => rfl

/-- An operation leaves the node id. -/
lemma Tidy.thisNodeId_perform (h : Tidy n) (operation : Broker.Operation) :
    (n.broker.perform operation).cacheService.thisNodeId = n.broker.cacheService.thisNodeId := by
  rcases h.inv.perform_cases operation [] with ⟨hstays, -⟩ | ⟨flag, -, hc⟩ | ⟨w, hget, rfl⟩
  · exact hstays.thisNodeId
  · exact hc.sameElse.cache.thisNodeId
  · exact (h.inv.close_current hget).1.cache.thisNodeId

lemma Tidy.operate (h : Tidy n) (operation : Broker.Operation) (now : ℤ) :
    Tidy { n with
      broker := n.broker.perform operation
      createTime := createTimes n.createTime now operation } where
  inv := h.inv.perform operation
  keyed := by
    intro c session hsession
    rcases h.inv.perform_cases operation c with ⟨hstays, -⟩ | ⟨flag, -, hc⟩ | ⟨w, hget, rfl⟩
    · exact h.keyed c session (hstays.session.symm.trans hsession)
    · obtain ⟨w, -, hl, -⟩ := hc.live
      obtain rfl := Option.some.inj (hl.session.symm.trans hsession)
      exact ⟨rfl, hl.valid⟩
    · have hdata := (h.inv.close_current hget).2.2
      refine h.keyed c session ?_
      change ((n.broker.step (.close w.endpoint)).cacheService.data c).session = _ at hsession
      rw [hdata] at hsession
      split_ifs at hsession
      exact hsession
  routers := by
    intro c hnone topic
    rcases h.inv.perform_cases operation c with ⟨hstays, -⟩ | ⟨flag, -, hc⟩ | ⟨w, hget, rfl⟩
    · have hold : (n.data c).session = none := hstays.session.symm.trans hnone
      exact (congrFun (hstays.routers hold) topic).trans (h.routers c hold topic)
    · obtain ⟨w, -, hl, -⟩ := hc.live
      exact absurd (hl.session.symm.trans hnone) (by simp)
    · have hdata := (h.inv.close_current hget).2.2
      change ((n.broker.step (.close w.endpoint)).cacheService.data c).session = _ at hnone
      show ((n.broker.step (.close w.endpoint)).cacheService.data c).routers topic = _
      rw [hdata] at hnone ⊢
      split_ifs at hnone ⊢
      · rfl
      · exact h.routers c hnone topic
  transients := by
    intro c session hsession hclean
    rcases h.inv.perform_cases operation c with ⟨hstays, hnot⟩ | ⟨flag, -, hc⟩ | ⟨w, hget, rfl⟩
    · rcases h.transients c session (hstays.session.symm.trans hsession) hclean with hw | hmem
      · exact Or.inl fun hnone => hw (hstays.wrapper.1 hnone)
      · exact Or.inr (by dsimp only; rwa [createTimes_of_not_connects hnot])
    · obtain ⟨w, hw, -⟩ := hc.live
      exact Or.inl (by dsimp only; rw [hw]; simp)
    · -- the record of a wrapper has its kind: that of a transient one is deleted
      have hdata := (h.inv.close_current hget).2.2
      have hl := h.inv.live_of_getWrapper hget
      change ((n.broker.step (.close w.endpoint)).cacheService.data c).session = _ at hsession
      rw [hdata] at hsession
      split_ifs at hsession with hkind
      obtain rfl := Option.some.inj (hl.session.symm.trans hsession)
      exact absurd (of_decide_eq_true hclean) hkind
  closures := by
    intro session hmem
    obtain ⟨hclean, hv, hnode⟩ := h.closures session hmem
    exact ⟨hclean, hv, by dsimp only; rwa [h.thisNodeId_perform operation]⟩
  stale := by
    intro session hmem record hrecord hold
    have hnode : record.nodeId ≠ n.broker.cacheService.thisNodeId := by
      rw [← h.thisNodeId_perform operation]
      exact hold
    rcases h.inv.perform_cases operation session.clientId with
      ⟨hstays, -⟩ | ⟨flag, -, hc⟩ | ⟨w, hget, rfl⟩
    · exact h.stale session hmem record (hstays.session.symm.trans hrecord) hnode
    · obtain ⟨w, -, hl, -⟩ := hc.live
      obtain rfl := Option.some.inj (hl.session.symm.trans hrecord)
      exact absurd rfl hold
    · have hdata := (h.inv.close_current hget).2.2
      change ((n.broker.step (.close w.endpoint)).cacheService.data _).session = _ at hrecord
      rw [hdata] at hrecord
      split_ifs at hrecord
      exact h.stale session hmem record hrecord hnode

lemma Tidy.start (h : Tidy n) (config : Config) {nodeId : UUID} (hfresh : n.Fresh nodeId) :
    Tidy (n.start config nodeId) where
  inv := by
    have hrestarted : (n.start config nodeId).broker.Restarted :=
      ⟨rfl, rfl, h.inv.routers, fun c => (h.inv.own c).stores, fun c => (h.inv.own c).keyed⟩
    exact hrestarted.inv
  keyed := h.keyed
  routers := h.routers
  transients := by
    intro c session hsession hclean
    refine Or.inr (mem_map.2 ⟨session, mem_filter.2 ⟨?_, hclean⟩, ?_⟩)
    · exact (PlainMap.mem_values_iff _ _).2 ⟨c, hsession⟩
    · rw [(h.keyed c session hsession).1]
      rfl
  closures := by
    intro session hmem
    obtain ⟨record, hrecord, rfl⟩ := mem_map.1 hmem
    obtain ⟨hvalue, hclean⟩ := mem_filter.1 hrecord
    obtain ⟨c, hget⟩ := (PlainMap.mem_values_iff _ _).1 hvalue
    obtain ⟨hclient, hv⟩ := h.keyed c record hget
    exact ⟨hclean, by rwa [← hclient] at hv, hfresh.2 record hvalue⟩
  stale := by
    intro session hmem record hrecord _
    obtain ⟨record', hrecord', rfl⟩ := mem_map.1 hmem
    obtain ⟨hvalue, hclean⟩ := mem_filter.1 hrecord'
    obtain ⟨c, hget⟩ := (PlainMap.mem_values_iff _ _).1 hvalue
    have hclient : record'.clientId = c := (h.keyed c record' hget).1
    rw [hclient] at hrecord
    obtain rfl := Option.some.inj (hget.symm.trans hrecord)
    exact hclean

/-! ### The closures -/

/-- A closure that finds its record, or none, destroys the session; otherwise it does nothing. -/
lemma Tidy.apply_cases (h : Tidy n) {session : Session} (hmem : session ∈ n.closures) :
    (∃ record, (n.data session.clientId).session = some record ∧
        ¬Session.Matches ⟨record, n.createTime session.clientId⟩ session ∧ n.apply session = n) ∨
      n.broker.wrappers.get session.clientId = none ∧
        ¬(n.data session.clientId).Persistent ∧
        n.apply session = n.withCache ((n.broker.cacheService.destroyTransientSession
          session.clientId).deleteSession session.clientId) := by
  obtain ⟨hclean, hv, hnode⟩ := h.closures session hmem
  have hdestroy : Node.destroy n.broker.cacheService session =
      (n.broker.cacheService.destroyTransientSession session.clientId).deleteSession
        session.clientId := by
    simp only [Node.destroy]
    rw [if_pos hclean]
  have hget : n.getSession session.clientId =
      (n.data session.clientId).session.map fun record => ⟨record, n.createTime session.clientId⟩ :=
    congrArg _ (CacheService.getSession_eq hv)
  -- a wrapper would have a record of this start
  have hwrapper : ∀ w, n.broker.wrappers.get session.clientId = some w →
      (n.data session.clientId).session = some ⟨session.clientId, decide (w.kind = .transient),
        n.broker.cacheService.thisNodeId⟩ := fun w hw => ((h.inv.own _).live w hw).session
  simp only [Node.apply]
  rw [hget]
  cases hrecord : (n.data session.clientId).session with
  | none =>
      refine Or.inr ⟨?_, ?_, by rw [← hdestroy]; rfl⟩
      · by_contra hne
        obtain ⟨w, hw⟩ := Option.ne_none_iff_exists'.1 hne
        exact absurd ((hwrapper w hw).symm.trans hrecord) (by simp)
      · rintro ⟨record, hsome, -⟩
        exact absurd (hsome.symm.trans hrecord) (by simp)
  | some record =>
      simp only [Option.map_some]
      by_cases hmatch : Session.Matches ⟨record, n.createTime session.clientId⟩ session
      · have hold : record.nodeId ≠ n.broker.cacheService.thisNodeId := fun heq =>
          hnode (hmatch.1.symm.trans heq)
        have hnone : n.broker.wrappers.get session.clientId = none := by
          by_contra hne
          obtain ⟨w, hw⟩ := Option.ne_none_iff_exists'.1 hne
          rw [Option.some.inj (hrecord.symm.trans (hwrapper w hw))] at hold
          exact hold rfl
        refine Or.inr ⟨hnone, ?_, by rw [if_pos hmatch, hdestroy]⟩
        rintro ⟨record', hsome, hpers⟩
        obtain rfl := Option.some.inj (hrecord.symm.trans hsome)
        rw [h.stale session hmem record hrecord hold] at hpers
        cases hpers
      · exact Or.inl ⟨record, rfl, hmatch, if_neg hmatch⟩

lemma mem_eraseIdx_of_ne {session session' : Session} {closures : List Session} {index : ℕ}
    (hget : closures[index]? = some session) (hmem : session' ∈ closures)
    (hne : session' ≠ session) :
    session' ∈ closures.eraseIdx index := by
  obtain ⟨i, hi⟩ := mem_iff_getElem?.1 hmem
  refine (mem_eraseIdx_iff_getElem? ).2 ⟨i, ?_, hi⟩
  rintro rfl
  exact hne (Option.some.inj (hi.symm.trans hget))

/-- What is left when the session of a client is destroyed. -/
structure Destroyed (n n' : Node) (clientId : Str) : Prop where
  inv : n'.broker.Inv
  self : n'.data clientId = { n.data clientId with session := none, routers := fun _ => none }
  others : ∀ c, c ≠ clientId → n'.data c = n.data c
  wrappers : n'.broker.wrappers = n.broker.wrappers
  thisNodeId : n'.broker.cacheService.thisNodeId = n.broker.cacheService.thisNodeId
  createTime : n'.createTime = n.createTime

/-- Only a client with a record is left with one. -/
lemma Destroyed.session {clientId : Str} (h : Destroyed n n' clientId) {session : MqttSession}
    (hsession : (n'.data c).session = some session) :
    c ≠ clientId ∧ (n.data c).session = some session := by
  have hne : c ≠ clientId := by
    rintro rfl
    rw [h.self] at hsession
    cases hsession
  exact ⟨hne, h.others c hne ▸ hsession⟩

lemma Tidy.destroyed (h : Tidy n) {clientId : Str} (hv : IdUtil.validateClientId clientId = true)
    (hnone : n.broker.wrappers.get clientId = none) (hpers : ¬(n.data clientId).Persistent) :
    Destroyed n (n.withCache ((n.broker.cacheService.destroyTransientSession
      clientId).deleteSession clientId)) clientId := by
  obtain ⟨hsame, hdata⟩ := Broker.data_closeClean h.inv.routers hv
  refine ⟨?_, hdata, hsame.data, rfl, hsame.thisNodeId, rfl⟩
  refine h.inv.frame (Broker.SameElse.withCache hsame) ⟨fun _ => ?_, fun m hm => ?_,
    fun w hw => absurd (hnone.symm.trans hw) (by simp)⟩
  · have hstores := (h.inv.own clientId).stores hpers
    simp only [ClientData.NoStores] at hstores ⊢
    rw [show (Broker.cacheService _).data _ = _ from hdata]
    exact hstores
  · rw [show (Broker.cacheService _).data _ = _ from hdata] at hm
    exact (h.inv.own clientId).keyed m hm

lemma Tidy.apply (h : Tidy n) {index : ℕ} {session : Session}
    (hget : n.closures[index]? = some session) :
    Tidy { n.apply session with closures := n.closures.eraseIdx index } := by
  have hmem : session ∈ n.closures := mem_of_getElem? hget
  have hleft : ∀ session' ∈ n.closures.eraseIdx index, session' ∈ n.closures := fun _ =>
    mem_of_mem_eraseIdx
  rcases h.apply_cases hmem with ⟨record, hrecord, hnot, heq⟩ | ⟨hnone, hpers, heq⟩
  · rw [heq]
    refine ⟨h.inv, h.keyed, h.routers, fun c current hcurrent hclean => ?_,
      fun session' hmem' => h.closures session' (hleft session' hmem'),
      fun session' hmem' => h.stale session' (hleft session' hmem')⟩
    -- the closure that is gone was not the one of a record
    refine (h.transients c current hcurrent hclean).imp_right fun hwait => ?_
    refine mem_eraseIdx_of_ne hget hwait ?_
    rintro rfl
    have hclient : current.clientId = c := (h.keyed c current hcurrent).1
    subst hclient
    obtain rfl := Option.some.inj (hcurrent.symm.trans hrecord)
    exact hnot ⟨rfl, rfl⟩
  · have hd : Destroyed n (n.apply session) session.clientId :=
      heq ▸ h.destroyed (h.closures session hmem).2.1 hnone hpers
    refine ⟨hd.inv, fun c current hcurrent => h.keyed c current (hd.session hcurrent).2,
      fun c (hc : ((n.apply session).data c).session = none) topic => ?_,
      fun c current hcurrent hclean => ?_, fun session' hmem' => ?_,
      fun session' hmem' current hcurrent hold => ?_⟩
    · show ((n.apply session).data c).routers topic = none
      by_cases hne : c = session.clientId
      · rw [hne, hd.self]
      · rw [hd.others c hne] at hc ⊢
        exact h.routers c hc topic
    · obtain ⟨hne, hrow⟩ := hd.session hcurrent
      show (n.apply session).broker.wrappers.get c ≠ none ∨
        ⟨current, (n.apply session).createTime c⟩ ∈ n.closures.eraseIdx index
      rw [hd.wrappers, hd.createTime]
      refine (h.transients c current hrow hclean).imp_right fun hwait => ?_
      refine mem_eraseIdx_of_ne hget hwait ?_
      rintro rfl
      exact hne (h.keyed c current hrow).1.symm
    · show _ ∧ _ ∧ session'.nodeId ≠ (n.apply session).broker.cacheService.thisNodeId
      rw [hd.thisNodeId]
      exact h.closures session' (hleft session' hmem')
    · change current.nodeId ≠ (n.apply session).broker.cacheService.thisNodeId at hold
      rw [hd.thisNodeId] at hold
      exact h.stale session' (hleft session' hmem') current (hd.session hcurrent).2 hold

/-! ### The end of an await message -/

lemma Tidy.expire (h : Tidy n) {clientId : Str} (hnone : n.broker.getWrapper clientId = none)
    (messageId : ℤ) : Tidy (n.expire clientId messageId) := by
  simp only [Node.expire]
  cases hget : n.broker.cacheService.awaitCache.get clientId with
  | none => exact h
  | some awaits =>
      refine ⟨?_, h.keyed, h.routers, h.transients, h.closures, h.stale⟩
      have hf := @Broker.SameElse.withCache n.broker clientId _
        (CacheService.sameElse_putAwaits n.broker.cacheService clientId (awaits.remove messageId).2)
      refine h.inv.frame hf ⟨fun hnot => ?_, (h.inv.own clientId).keyed, fun w hw => ?_⟩
      · have hnone := ((h.inv.own clientId).stores hnot).1
        cases hnone.symm.trans hget
      · have hl := (h.inv.own clientId).live w hw
        cases hnone.symm.trans ((Broker.getWrapper_eq hl.valid).trans hw)

lemma Tidy.step (h : Tidy n) {action : Action} (hstep : step n action = some n') : Tidy n' := by
  cases action with
  | operate operation now =>
      obtain rfl := Option.some.inj hstep
      exact h.operate operation now
  | start config nodeId =>
      simp only [Restart.step] at hstep
      split_ifs at hstep with hfresh
      obtain rfl := Option.some.inj hstep
      exact h.start config hfresh
  | apply index =>
      obtain ⟨session, hget, rfl⟩ := Option.map_eq_some_iff.1 hstep
      exact h.apply hget
  | expire clientId messageId =>
      simp only [Restart.step] at hstep
      split_ifs at hstep with hnone
      obtain rfl := Option.some.inj hstep
      exact h.expire hnone messageId

lemma tidy_initial (config : Config) (nodeId : UUID) : Tidy (.initial config nodeId) := by
  have hnone : ∀ c, ((Node.initial config nodeId).data c).session = none := fun c =>
    PlainMap.get_empty (V := MqttSession) c
  have hrouters : ∀ c topic, ((Node.initial config nodeId).data c).routers topic = none :=
    fun c topic => PlainMap.get_empty (⟨c, topic⟩ : MqttRouterKey)
  refine ⟨(Broker.restarted_initial config nodeId).inv, fun c session hsession => ?_,
    fun c _ topic => hrouters c topic, fun c session hsession => ?_,
    fun session hmem => absurd hmem not_mem_nil, fun session hmem => absurd hmem not_mem_nil⟩
  · exact absurd ((hnone c).symm.trans hsession) (by simp)
  · exact absurd ((hnone c).symm.trans hsession) (by simp)

lemma tidy_run {config : Config} {nodeId : UUID} {actions : List Action}
    (hrun : run step (.initial config nodeId) actions = some n) : Tidy n :=
  invariant_run (fun _ _ _ _ h _ hstep => h.step hstep) (tidy_initial config nodeId)
    (allSteps_true _ _) hrun

/-- A node stays ready, whatever it does. -/
lemma working_run {config : Config} {nodeId : UUID} {actions : List Action}
    (hrun : run step (.initial config nodeId) actions = some n) : n.broker.Working := by
  refine ⟨(tidy_run hrun).inv, ?_⟩
  refine invariant_run (I := fun n : Node => n.broker.Ready) (fun n action n' _ h _ hstep => ?_)
    ?_ (allSteps_true _ _) hrun
  · cases action with
    | operate operation now =>
        obtain rfl := Option.some.inj hstep
        exact h.perform operation
    | start config nodeId =>
        simp only [Restart.step] at hstep
        split_ifs at hstep
        obtain rfl := Option.some.inj hstep
        exact Broker.ready_of_empty rfl rfl
    | apply index =>
        obtain ⟨session, -, rfl⟩ := Option.map_eq_some_iff.1 hstep
        simp only [Node.apply]
        split
        · split_ifs
          · exact h.withCache _
          · exact h
        · exact h.withCache _
    | expire clientId messageId =>
        simp only [Restart.step] at hstep
        split_ifs at hstep
        obtain rfl := Option.some.inj hstep
        simp only [Node.expire]
        split
        · exact h
        · exact h.withCache _
  · exact Broker.ready_of_empty rfl rfl

/-! ### When everything has ended -/

/-- A wrapper that is registered after a close has another connection. -/
lemma wrapper_of_close {b : Broker} (h : b.Inv) {id : ℕ} {w : Wrapper}
    (hw : (b.step (.close id)).wrappers.get c = some w) :
    b.wrappers.get c = some w ∧ w.endpoint ≠ id := by
  cases hend : b.endpoint id with
  | none =>
      rw [Broker.step_close_of_none hend] at hw
      refine ⟨hw, ?_⟩
      rintro rfl
      have howner := ((h.own c).live w hw).owner
      simp only [Broker.owner, hend] at howner
      cases howner
  | some endpoint =>
      have hof : ∀ w', b.wrappers.get c = some w' → w'.endpoint = id →
          b.getWrapper endpoint.clientIdentifier = some w' := by
        intro w' hw' hid
        have hl := (h.own c).live w' hw'
        rw [(hl.isCleanSession (hid ▸ hend)).1, Broker.getWrapper_eq hl.valid]
        exact hw'
      by_cases hheld : ∃ w, b.getWrapper endpoint.clientIdentifier = some w ∧ w.endpoint = id
      · obtain ⟨held, hget, rfl⟩ := hheld
        obtain ⟨hsame, hnone, -⟩ := h.close_current hget
        have hne : c ≠ endpoint.clientIdentifier := by
          rintro rfl
          rw [Broker.getWrapper_eq (Broker.valid_of_getWrapper hget)] at hnone
          exact absurd (hnone.symm.trans hw) (by simp)
        have hw' := (hsame.wrappers c hne).symm.trans hw
        refine ⟨hw', fun hid => hne ?_⟩
        have hl := (h.own c).live w hw'
        exact (hl.isCleanSession (hid ▸ hend)).1.symm
      · have hnot : ∀ w, b.getWrapper endpoint.clientIdentifier = some w → w.endpoint ≠ id :=
          fun w hget hid => hheld ⟨w, hget, hid⟩
        rw [(Broker.close_superseded hend hnot).2] at hw
        exact ⟨hw, fun hid => hnot w (hof w hw hid) hid⟩

lemma Tidy.closes (h : Tidy n) (ids : List ℕ) :
    Tidy { n with broker := n.broker.run (ids.map .close) } ∧
      ∀ c w, (n.broker.run (ids.map .close)).wrappers.get c = some w →
        n.broker.wrappers.get c = some w ∧ w.endpoint ∉ ids := by
  induction ids generalizing n with
  | nil => exact ⟨h, fun c w hw => ⟨hw, not_mem_nil⟩⟩
  | cons id ids ih =>
      obtain ⟨htidy, hwrappers⟩ := ih (h.operate (.op (.close id)) 0)
      refine ⟨htidy, fun c w hw => ?_⟩
      obtain ⟨hbefore, hmem⟩ := hwrappers c w hw
      obtain ⟨hget, hne⟩ := wrapper_of_close h.inv hbefore
      exact ⟨hget, by simp [hne, hmem]⟩

/-- A clean session and a persistent one at the end of a process. -/
def sampleActions : List Action :=
  [.operate (.op (.connect ['c'] false)) 1, .operate (.op (.subscribeTopic ['c'] ['t'] 1)) 2,
    .operate (.op (.connect ['d'] true)) 3, .operate (.op (.subscribeTopic ['d'] ['t'] 0)) 4]

/-- The closure of the clean session runs after another client has connected. -/
def sampleStart : List Action :=
  [.start sampleConfig 2, .operate (.op (.connect ['e'] true)) 5, .apply 0]

/-- The client that connects. -/
def Action.connects : Action → Option Str
  | .operate (.op (.connect clientId _)) _ => some clientId
  | _ => none

/-- A message for a client that stays away. -/
def enqueued (config : Config) (clientId : Str) (d : ClientData) (message : MqttMessage)
    (qos : MqttQoS) : ClientData :=
  if message.qos ≠ .atMostOnce ∨ config.sessionQueueStoreQos0 = true then
    { d with queue := d.queue.map fun queue => Broker.withStored queue clientId message qos }
  else d

/-- An await message of a client that stays away has expired. -/
def expired (d : ClientData) (messageId : ℤ) : ClientData :=
  { d with awaits := d.awaits.map fun awaits => (awaits.remove messageId).2 }

/-- What an action does to the configuration and to the data of a client that stays away. -/
def leaves (clientId : Str) (d : Config × ClientData) : Action → Config × ClientData
  | .operate (.op (.publish clientId' message qos)) _ =>
      if clientId' = clientId then (d.1, enqueued d.1 clientId d.2 message qos) else d
  | .expire clientId' messageId => if clientId' = clientId then (d.1, expired d.2 messageId) else d
  | .start config _ => (config, d.2)
  | _ => d

/-- The client has no connection since the start, and no closure works on it. -/
structure Away (n : Node) (clientId : Str) (d : Config × ClientData) : Prop where
  config : n.broker.cacheService.config = d.1
  data : n.data clientId = d.2
  persistent : d.2.Persistent
  owner : ∀ id cleanSession, n.broker.owner id ≠ some (clientId, cleanSession)
  closures : ∀ session ∈ n.closures, session.clientId ≠ clientId

variable {d : Config × ClientData}

lemma Away.getWrapper (ht : Tidy n) (h : Away n c d) : n.broker.getWrapper c = none := by
  by_contra hsome
  obtain ⟨w, hget⟩ := Option.ne_none_iff_exists'.1 hsome
  exact h.owner _ _ (ht.inv.live_of_getWrapper hget).owner

lemma Away.of_sameElse (h : Away n c d) {broker : Broker} {clientId : Str}
    (hsame : Broker.SameElse n.broker broker clientId) (hne : c ≠ clientId)
    (createTime : Str → ℤ) : Away { n with broker, createTime } c d := by
  have hdata : broker.cacheService.data c = n.data c := hsame.cache.data c hne
  exact ⟨hsame.cache.config.trans h.config, hdata.trans h.data, h.persistent,
    fun id flag heq => h.owner id flag ((hsame.owner id).symm.trans heq), h.closures⟩

/-- An operation of another client, or of nobody. -/
lemma Away.operate_of_ne (ht : Tidy n) (h : Away n c d) {operation : Broker.Operation}
    (hne : operation.client ≠ some c) (now : ℤ) :
    Away { n with
      broker := n.broker.perform operation
      createTime := createTimes n.createTime now operation } c d := by
  cases hclient : operation.client with
  | some clientId =>
      have hne' : c ≠ clientId := by
        rintro rfl
        exact hne hclient
      by_cases hconn : operation.Connects clientId
      · obtain ⟨hv, cleanSession, rfl⟩ := hconn
        have hsame := (ht.inv.connect hv cleanSession).sameElse
        rw [Broker.perform_connect hv]
        refine ⟨hsame.cache.config.trans h.config, (hsame.cache.data c hne').trans h.data,
          h.persistent, fun id flag heq => ?_, h.closures⟩
        have howner := (hsame.owner id).symm.trans heq
        rw [Broker.owner_addEndpoint] at howner
        split_ifs at howner
        · exact hne' (Prod.mk.inj (Option.some.inj howner)).1.symm
        · exact h.owner id flag howner
      · exact h.of_sameElse (ht.inv.sameElse_perform hclient hconn) hne' _
  | none =>
      obtain ⟨id, rfl⟩ := Broker.eq_close_of_client hclient
      cases hend : n.broker.endpoint id with
      | none =>
          have hstep : n.broker.perform (.op (.close id)) = n.broker :=
            Broker.step_close_of_none hend
          rw [hstep]
          exact ⟨h.config, h.data, h.persistent, h.owner, h.closures⟩
      | some endpoint =>
          refine h.of_sameElse (ht.inv.sameElse_close hend) ?_ _
          rintro rfl
          exact h.owner id endpoint.isCleanSession (congrArg (Option.map _) hend)

lemma data_enqueue_self (s : CacheService) (hv : IdUtil.validateClientId c = true)
    (message : MqttMessage) (qos : MqttQoS) :
    (s.enqueue message c qos).2.data c = enqueued s.config c (s.data c) message qos := by
  simp only [CacheService.enqueue, enqueued]
  rw [if_neg (by simp [hv])]
  by_cases hdrop : message.qos = .atMostOnce ∧ s.config.sessionQueueStoreQos0 = false
  · rw [if_pos (by simp [hdrop]), if_neg (by simp [hdrop])]
  · rw [if_neg (by simpa using hdrop), if_pos ((not_and_or.1 hdrop).imp_right (by simp))]
    cases hget : s.queueCache.get c with
    | none => simp only [CacheService.data, hget, Option.map_none]
    | some queue =>
        simp only [CacheService.data, hget, Option.map_some, PlainMap.get_put_self]
        rfl

/-- A message for the client. -/
lemma Away.publish (ht : Tidy n) (h : Away n c d) (message : MqttMessage) (qos : MqttQoS)
    (createTime : Str → ℤ) :
    Away { n with
      broker := n.broker.handleLocalPublishMessage c message qos
      createTime } c (d.1, enqueued d.1 c d.2 message qos) := by
  obtain ⟨session, hsession, hclean⟩ := h.persistent
  have hv := (ht.keyed c session ((congrArg ClientData.session h.data).trans hsession)).2
  have hpers : n.broker.cacheService.isPersistentSession c = true :=
    (CacheService.isPersistentSession_iff hv).2
      ⟨session, (congrArg ClientData.session h.data).trans hsession, hclean⟩
  have hhandle : n.broker.handleLocalPublishMessage c message qos =
      n.broker.withCache (n.broker.cacheService.enqueue message c qos).2 :=
    (Broker.handleLocalPublishMessage_of_none (h.getWrapper ht) message qos).trans (if_pos hpers)
  rw [hhandle]
  refine ⟨?_, ?_, ?_, h.owner, h.closures⟩
  · exact (CacheService.sameElse_enqueue message qos).config.trans h.config
  · rw [← h.config, ← h.data]
    exact data_enqueue_self _ hv message qos
  · simp only [enqueued]
    split_ifs
    · exact ⟨session, hsession, hclean⟩
    · exact ⟨session, hsession, hclean⟩

lemma leaves_operate {operation : Broker.Operation} {now : ℤ}
    (hpublish : ∀ message qos, operation ≠ .op (.publish c message qos)) :
    leaves c d (.operate operation now) = d := by
  cases operation with
  | op op =>
      cases op with
      | publish clientId message qos =>
          refine if_neg ?_
          rintro rfl
          exact hpublish message qos rfl
      | _ => rfl
  | call clientId method => rfl
  | releaseQos2 clientId messageId => rfl

lemma Away.operate (ht : Tidy n) (h : Away n c d) {operation : Broker.Operation} {now : ℤ}
    (hconnect : (Action.operate operation now).connects ≠ some c) :
    Away { n with
      broker := n.broker.perform operation
      createTime := createTimes n.createTime now operation } c
        (leaves c d (.operate operation now)) := by
  by_cases hpublish : ∃ message qos, operation = .op (.publish c message qos)
  · obtain ⟨message, qos, rfl⟩ := hpublish
    rw [show leaves c d (.operate (.op (.publish c message qos)) now) = _ from if_pos rfl]
    exact h.publish ht message qos _
  · have hpublish : ∀ message qos, operation ≠ .op (.publish c message qos) :=
      fun message qos heq => hpublish ⟨message, qos, heq⟩
    rw [leaves_operate hpublish]
    by_cases hclient : operation.client = some c
    · rw [Broker.perform_of_none (h.getWrapper ht) hclient (fun cleanSession heq => hconnect ?_)
        hpublish]
      · exact ⟨h.config, h.data, h.persistent, h.owner, h.closures⟩
      · rw [heq]
        rfl
    · exact h.operate_of_ne ht hclient now

/-- An await message has expired, of the client or of another one. -/
lemma Away.expire (h : Away n c d) (clientId : Str) (messageId : ℤ) :
    Away (n.expire clientId messageId) c (leaves c d (.expire clientId messageId)) := by
  have hdata : (n.expire clientId messageId).data c =
      (leaves c (d.1, n.data c) (.expire clientId messageId)).2 := by
    simp only [Node.expire, leaves]
    cases hget : n.broker.cacheService.awaitCache.get clientId with
    | none =>
        split_ifs with heq
        · subst heq
          simp only [expired, Node.data, CacheService.data, hget, Option.map_none]
        · rfl
    | some awaits =>
        split_ifs with heq
        · subst heq
          simp only [expired, Node.data, CacheService.data, hget, Option.map_some,
            Node.withCache, Broker.withCache, PlainMap.get_put_self]
        · exact (CacheService.sameElse_putAwaits _ _ _).data c (Ne.symm heq)
  have hrest : (n.expire clientId messageId).broker.cacheService.config =
      n.broker.cacheService.config ∧
      (∀ id, (n.expire clientId messageId).broker.owner id = n.broker.owner id) ∧
      (n.expire clientId messageId).closures = n.closures := by
    simp only [Node.expire]
    split <;> exact ⟨rfl, fun _ => rfl, rfl⟩
  obtain ⟨hconfig, howner, hclosures⟩ := hrest
  rw [h.data] at hdata
  refine ⟨hconfig.trans (h.config.trans ?_), hdata, ?_, fun id flag heq =>
    h.owner id flag ((howner id).symm.trans heq), hclosures ▸ h.closures⟩
  · simp only [leaves]
    split_ifs <;> rfl
  · obtain ⟨session, hsession, hclean⟩ := h.persistent
    simp only [leaves]
    split_ifs
    · exact ⟨session, hsession, hclean⟩
    · exact ⟨session, hsession, hclean⟩

/-- A start has no closure for a persistent session. -/
lemma away_start (ht : Tidy n) (hpers : (n.data c).Persistent) (config : Config) (nodeId : UUID) :
    Away (n.start config nodeId) c (config, n.data c) := by
  refine ⟨rfl, rfl, hpers, fun id flag heq => (by cases heq), fun session hmem hclient => ?_⟩
  obtain ⟨record, hrecord, rfl⟩ := mem_map.1 hmem
  obtain ⟨hvalue, hclean⟩ := mem_filter.1 hrecord
  obtain ⟨c', hget⟩ := (PlainMap.mem_values_iff _ _).1 hvalue
  obtain rfl : c' = c := (ht.keyed c' record hget).1.symm.trans hclient
  obtain ⟨record', hget', hnot⟩ := hpers
  obtain rfl := Option.some.inj (hget.symm.trans hget')
  rw [hnot] at hclean
  cases hclean

lemma Away.step (ht : Tidy n) (h : Away n c d) {action : Action}
    (hconnect : action.connects ≠ some c) (hstep : step n action = some n') :
    Away n' c (leaves c d action) := by
  cases action with
  | operate op now =>
      obtain rfl := Option.some.inj hstep
      exact h.operate ht hconnect
  | start config nodeId =>
      simp only [Restart.step] at hstep
      split_ifs at hstep
      obtain rfl := Option.some.inj hstep
      have haway := away_start ht (h.data ▸ h.persistent) config nodeId
      rw [h.data] at haway
      exact haway
  | apply index =>
      obtain ⟨session, hget, rfl⟩ := Option.map_eq_some_iff.1 hstep
      have hmem : session ∈ n.closures := mem_of_getElem? hget
      have hclosures : ∀ session' ∈ n.closures.eraseIdx index, session'.clientId ≠ c :=
        fun session' hleft => h.closures session' (mem_of_mem_eraseIdx hleft)
      rcases ht.apply_cases hmem with ⟨-, -, -, heq⟩ | ⟨-, -, heq⟩
      · rw [heq]
        exact ⟨h.config, h.data, h.persistent, h.owner, hclosures⟩
      · obtain ⟨-, hv, -⟩ := ht.closures session hmem
        obtain ⟨hsame, -⟩ := Broker.data_closeClean ht.inv.routers hv
        rw [heq]
        exact ⟨hsame.config.trans h.config,
          (hsame.data c (h.closures session hmem).symm).trans h.data, h.persistent, h.owner,
          hclosures⟩
  | expire clientId messageId =>
      simp only [Restart.step] at hstep
      split_ifs at hstep with hnone
      obtain rfl := Option.some.inj hstep
      exact h.expire clientId messageId

lemma Away.run (ht : Tidy n) (h : Away n c d) {actions : List Action}
    (hconnect : ∀ action ∈ actions, action.connects ≠ some c)
    (hrun : Lib.run Restart.step n actions = some n') :
    Tidy n' ∧ Away n' c (actions.foldl (leaves c) d) := by
  induction actions generalizing n d with
  | nil =>
      obtain rfl := Option.some.inj hrun
      exact ⟨ht, h⟩
  | cons action actions ih =>
      rw [run_cons, Option.bind_eq_some_iff] at hrun
      obtain ⟨m, hstep, hrun⟩ := hrun
      obtain ⟨hfirst, hrest⟩ := forall_mem_cons.1 hconnect
      exact ih (ht.step hstep) (h.step ht hfirst hstep) hrest hrun

/-- **A persistent session survives the broker.**  Whatever a node has done before it ends, and
whatever other clients, further starts and closures do until the client connects again: its data
are those of before the first of these starts, with the messages for it enqueued and without the
await messages that have expired, and its connection goes on with them. -/
theorem resumes_after_start (config : Config) (nodeId : UUID) (before after : List Action)
    (config' : Config) (nodeId' : UUID) (n n' : Node) (c : Str)
    (hbefore : run step (.initial config nodeId) before = some n)
    (hpers : n.broker.cacheService.isPersistentSession c = true)
    (hafter : run step n (.start config' nodeId' :: after) = some n')
    (hconnect : ∀ action ∈ after, action.connects ≠ some c) :
    n'.data c = (after.foldl (leaves c) (config', n.data c)).2 ∧
      (n'.broker.handleAccept c false).1 = true ∧
      n'.broker.Resumes (n'.broker.step (.connect c false)) c := by
  have ht := tidy_run hbefore
  have hv : IdUtil.validateClientId c = true := by
    by_contra hv
    rw [CacheService.isPersistentSession, CacheService.getSession, if_pos (by simpa using hv)]
      at hpers
    cases hpers
  have hdata := (CacheService.isPersistentSession_iff hv).1 hpers
  rw [run_cons, Option.bind_eq_some_iff] at hafter
  obtain ⟨m, hstart, hafter⟩ := hafter
  have htm := ht.step hstart
  simp only [Restart.step] at hstart
  split_ifs at hstart
  obtain rfl := Option.some.inj hstart
  obtain ⟨htn, haway⟩ := (away_start ht hdata config' nodeId').run htm hconnect hafter
  have hpers' : n'.broker.cacheService.isPersistentSession c = true := by
    refine (CacheService.isPersistentSession_iff hv).2 ?_
    rw [show n'.broker.cacheService.data c = _ from haway.data]
    exact haway.persistent
  refine ⟨haway.data, Broker.openSession_isPersistent htn.inv hv, ?_⟩
  have hstep : n'.broker.step (.connect c false) = (n'.broker.handleAccept c false).2 := if_pos hv
  rw [hstep]
  exact (htn.inv.connect hv false).resumes hpers'

/-- The client is sent a message while it is away, and an await message of it expires. -/
def sampleAway : List Action :=
  sampleStart ++ [.operate (.op (.publish ['c'] sampleMessage .atLeastOnce)) 6, .expire ['c'] 7]

/-- It had published a message of QoS 2 before. -/
def samplePublished : List Action :=
  sampleActions ++ [.operate (.op (.receiveQos2 ['c']
    ⟨['c'], 7, ['u'], [1], .exactlyOnce, false, false⟩)) 5]

theorem resumes_after_start_sample : ∃ n n',
    run step (.initial sampleConfig 1) samplePublished = some n ∧
      run step n sampleAway = some n' ∧
      (n.data ['c']).queued.length = 0 ∧ ((n.data ['c']).awaitOf 7).isSome = true ∧
      (n'.data ['c']).queued.length = 1 ∧ ((n'.data ['c']).awaitOf 7).isSome = false ∧
      n'.broker.Resumes (n'.broker.step (.connect ['c'] false)) ['c'] := by
  have hobs : (run step (.initial sampleConfig 1) samplePublished).map (fun n =>
        (n.broker.cacheService.isPersistentSession ['c'], (n.data ['c']).queued.length,
          ((n.data ['c']).awaitOf 7).isSome, (run step n sampleAway).map fun n' =>
            ((n'.data ['c']).queued.length, ((n'.data ['c']).awaitOf 7).isSome))) =
        some (true, 0, true, some (1, false)) := by decide
  obtain ⟨n, hbefore, hobs⟩ := Option.map_eq_some_iff.1 hobs
  simp only [Prod.mk.injEq] at hobs
  obtain ⟨hpers, hqueued, hawait, hobs⟩ := hobs
  obtain ⟨n', hafter, hobs⟩ := Option.map_eq_some_iff.1 hobs
  obtain ⟨hqueued', hawait'⟩ := Prod.mk.inj hobs
  exact ⟨n, n', hbefore, hafter, hqueued, hawait, hqueued', hawait',
    (resumes_after_start sampleConfig 1 samplePublished _ sampleConfig 2 n n' ['c'] hbefore hpers hafter
      (by decide)).2.2⟩

end Restart

end Stuart
