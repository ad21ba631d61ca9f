/-
The session service of a standalone broker: `openSession` and `closeSession`.

A broker holds the caches, the endpoints of all connections in the order of their CONNECTs, and
the registered session wrappers.  Wrappers refer to their endpoint by its place in that list, so
an endpoint that was closed is closed for everyone who holds it.  The queue and the inflight
messages of a persistent wrapper are the stored ones; a transient wrapper has its own.

`openSession` is cut at the places where other tasks can come in between: the persistence read,
the locked section, the teardown of the old state, the construction of the wrapper, `open` and the
registration.
-/
import Stuart.Services.CacheService

namespace Stuart

open List Lib

/-- The fields that both kinds of wrapper have. -/
structure WrapperFields where
  thisClientId : Str
  endpoint : ℕ
  timeouts : List ℤ
  ledger : Ledger

/-- A session wrapper object. -/
inductive Wrapper where
  | transient (fields : WrapperFields) (queue : BoundedQueue MqttMessage)
      (inflights : PlainMap ℤ MqttMessage) (awaits : PlainMap ℤ MqttAwaitMessage)
  | persistent (fields : WrapperFields)

namespace Wrapper

def fields : Wrapper → WrapperFields
  | .transient fields .. => fields
  | .persistent fields => fields

def kind : Wrapper → SessionKind
  | .transient .. => .transient
  | .persistent _ => .persistent

def endpoint (w : Wrapper) : ℕ := w.fields.endpoint

def isSameEndpoint (w : Wrapper) (compare : ℕ) : Bool := decide (w.endpoint = compare)

/-- `refreshEndpoint`; a transient wrapper keeps the endpoint it was made with. -/
def refreshEndpoint : Wrapper → ℕ → Wrapper
  | w@(.transient ..), _ => w
  | .persistent fields, endpoint => .persistent { fields with endpoint := endpoint }

end Wrapper

structure Broker where
  cacheService : CacheService
  endpoints : List MqttEndpoint
  wrappers : PlainMap Str Wrapper

namespace Broker

def endpoint (b : Broker) (id : ℕ) : Option MqttEndpoint := b.endpoints[id]?

def setEndpoint (b : Broker) (id : ℕ) (endpoint : MqttEndpoint) : Broker :=
  { b with endpoints := b.endpoints.set id endpoint }

def withCache (b : Broker) (cacheService : CacheService) : Broker :=
  { b with cacheService := cacheService }

def isConnected (b : Broker) (id : ℕ) : Bool :=
  match b.endpoint id with
  | some endpoint => endpoint.isConnected
  | none => false

/-- `close` of an endpoint, by either side. -/
def disconnect (b : Broker) (id : ℕ) : Broker :=
  match b.endpoint id with
  | some endpoint => b.setEndpoint id endpoint.close
  | none => b

/-! ### The methods of a wrapper -/

/-- `closeEndpoint`. -/
def closeEndpoint (b : Broker) (w : Wrapper) : Broker :=
  if b.isConnected w.endpoint then b.disconnect w.endpoint else b

/-- `close`. -/
def closeWrapper (b : Broker) (w : Wrapper) : Broker :=
  let b := b.closeEndpoint w
  match w with
  | .transient fields .. => b.withCache (b.cacheService.destroyTransientSession fields.thisClientId)
  | .persistent fields => b.withCache (b.cacheService.destroyPersistentSession fields.thisClientId)

/-- A method of a transient wrapper: it works on the wrapper's own data and its endpoint. -/
def onTransient (b : Broker) (fields : WrapperFields) (queue : BoundedQueue MqttMessage)
    (inflights : PlainMap ℤ MqttMessage) (awaits : PlainMap ℤ MqttAwaitMessage)
    (f : SessionWrapper .transient → SessionWrapper .transient) : Option (Wrapper × Broker) :=
  match b.endpoint fields.endpoint with
  | none => none
  | some endpoint =>
      let w := f ⟨b.cacheService.config, fields.thisClientId, endpoint, queue, inflights,
        fields.timeouts, fields.ledger⟩
      some (.transient { fields with timeouts := w.timeouts, ledger := w.ledger } w.queue
        w.inflights awaits, b.setEndpoint fields.endpoint w.endpoint)

/-- A method of a persistent wrapper: it works on the stored queue and inflight messages and on
the endpoint; `none` for the exception when they were removed. -/
def onPersistent (b : Broker) (fields : WrapperFields)
    (f : SessionWrapper .persistent → SessionWrapper .persistent) : Option (Wrapper × Broker) :=
  match b.endpoint fields.endpoint, b.cacheService.queueCache.get fields.thisClientId,
      b.cacheService.inflightCache.get fields.thisClientId with
  | some endpoint, some queue, some inflights =>
      let w := f ⟨b.cacheService.config, fields.thisClientId, endpoint, queue, inflights,
        fields.timeouts, fields.ledger⟩
      some (.persistent { fields with timeouts := w.timeouts, ledger := w.ledger },
        (b.setEndpoint fields.endpoint w.endpoint).withCache
          (b.cacheService.storeSession fields.thisClientId w.queue w.inflights))
  | _, _, _ => none

/-- A method that both kinds of wrapper have. -/
def onWrapper (b : Broker) (f : ∀ {kind}, SessionWrapper kind → SessionWrapper kind) :
    Wrapper → Option (Wrapper × Broker)
  | .transient fields queue inflights awaits => b.onTransient fields queue inflights awaits f
  | .persistent fields => b.onPersistent fields f

/-- `open()`; no wrapper for an exception. -/
def openWrapper (b : Broker) : Wrapper → Option Wrapper × Broker
  | w@(.transient ..) => (some w, b)
  | .persistent fields =>
      let b := b.withCache (b.cacheService.initPersistentSession fields.thisClientId)
      match b.onPersistent fields PersistentSessionWrapper.openWrapper with
      | some (w, b) => (some w, b)
      | none => (none, b)

/-! ### The container of the wrappers -/

def putWrapper (b : Broker) (clientId : Str) (w : Wrapper) : Broker :=
  if !IdUtil.validateClientId clientId then b
  else { b with wrappers := b.wrappers.put clientId w }

def removeWrapper (b : Broker) (clientId : Str) : Broker :=
  if !IdUtil.validateClientId clientId then b
  else { b with wrappers := b.wrappers.remove clientId }

def getWrapper (b : Broker) (clientId : Str) : Option Wrapper :=
  if !IdUtil.validateClientId clientId then none else b.wrappers.get clientId

def saveSession (b : Broker) (clientId : Str) (cleanSession : Bool) : Broker :=
  b.withCache (b.cacheService.saveSession ⟨clientId, cleanSession, b.cacheService.thisNodeId⟩)

/-! ### The parts of `openSession` -/

/-- The locked section: remove the old wrapper and save the session record. -/
def takeWrapper (b : Broker) (clientId : Str) (cleanSession : Bool) : Option Wrapper × Broker :=
  (b.getWrapper clientId, (b.removeWrapper clientId).saveSession clientId cleanSession)

/-- Close or destroy the old state. -/
def teardown (b : Broker) (clientId : Str) (cleanSession isPersistent : Bool) :
    Option Wrapper → Broker
  | some wrapper =>
      if cleanSession then b.closeWrapper wrapper
      else if isPersistent then b.closeEndpoint wrapper
      else b.closeWrapper wrapper
  | none =>
      if cleanSession && isPersistent then
        b.withCache (b.cacheService.destroyPersistentSession clientId)
      else if cleanSession || !isPersistent then
        b.withCache (b.cacheService.destroyTransientSession clientId)
      else b

/-- `new TransientSessionWrapper`. -/
def newTransient (b : Broker) (clientId : Str) (id : ℕ) : Wrapper :=
  .transient ⟨clientId, id, [], .empty⟩ ⟨b.cacheService.config.sessionQueueMaxCapacity, []⟩ ∅ ∅

/-- `new PersistentSessionWrapper`: it opens what is stored of the client. -/
def newPersistent (b : Broker) (clientId : Str) (id : ℕ) : Wrapper × Broker :=
  let cacheService := (b.cacheService.openAwait clientId).2
  let cacheService := (cacheService.openQueue clientId).2
  let cacheService := (cacheService.openInflight clientId).2
  (.persistent ⟨clientId, id, [], .empty⟩, b.withCache cacheService)

/-- Build a new wrapper, or reuse the old one. -/
def buildWrapper (b : Broker) (clientId : Str) (id : ℕ) (cleanSession isPersistent : Bool)
    (old : Option Wrapper) : Wrapper × Broker :=
  if cleanSession then (b.newTransient clientId id, b)
  else
    match old with
    | some wrapper =>
        if isPersistent then (wrapper.refreshEndpoint id, b) else b.newPersistent clientId id
    | none => b.newPersistent clientId id

/-- `openSession` of the connection `id`.  An exception of `open` keeps the wrapper from being
registered. -/
def openSession (b : Broker) (clientId : Str) (id : ℕ) (cleanSession : Bool) : Broker :=
  let isPersistent := b.cacheService.isPersistentSession clientId
  let taken := b.takeWrapper clientId cleanSession
  let b := taken.2.teardown clientId cleanSession isPersistent taken.1
  let built := b.buildWrapper clientId id cleanSession isPersistent taken.1
  match built.2.openWrapper built.1 with
  | (some wrapper, b) => b.putWrapper clientId wrapper
  | (none, b) => b

/-! ### `closeSession` -/

/-- The locked part of `closeSession`. -/
def closeLocked (b : Broker) (endpoint : MqttEndpoint) (id : ℕ) : Broker :=
  let clientId := endpoint.clientIdentifier
  match b.getWrapper clientId with
  | none => b
  | some wrapper =>
      if wrapper.isSameEndpoint id then
        let b' := b.removeWrapper clientId
        match b.cacheService.getSession clientId with
        | none => b'
        | some session =>
            if endpoint.isCleanSession ∧ b.cacheService.thisNodeId = session.nodeId then
              b'.withCache
                ((b.cacheService.destroyTransientSession clientId).deleteSession clientId)
            else b'
      else b

/-- The checks that `closeSession` makes before it takes the lock. -/
def mayClose (b : Broker) (endpoint : MqttEndpoint) : Bool :=
  !endpoint.isConnected && b.wrappers.containsKey endpoint.clientIdentifier

def closeSession (b : Broker) (id : ℕ) : Broker :=
  match b.endpoint id with
  | none => b
  | some endpoint => if b.mayClose endpoint then b.closeLocked endpoint id else b

/-! ### The connection -/

/-- `accept` of an endpoint; nothing happens to one that is closed already. -/
def accept (b : Broker) (id : ℕ) : Broker :=
  match b.endpoint id with
  | none => b
  | some endpoint =>
      match endpoint.accept with
      | some endpoint' => b.setEndpoint id endpoint'
      | none => b

/-- The flag that `handleAccept` passes to `endpoint.accept` after `openSession`. -/
def sessionPresent (b : Broker) (clientId : Str) (cleanSession : Bool) : Bool :=
  if cleanSession then false else b.cacheService.isPersistentSession clientId

/-- A CONNECT that `handleEndpoint` lets through to `handleAccept`: the session-present flag, and
the broker afterwards. -/
def handleAccept (b : Broker) (clientId : Str) (cleanSession : Bool) : Bool × Broker :=
  let id := b.endpoints.length
  let b := { b with endpoints := b.endpoints ++ [MqttEndpoint.create id clientId cleanSession] }
  let b := b.openSession clientId id cleanSession
  (b.sessionPresent clientId cleanSession, b.accept id)

/-! ### The messages and routers of a session -/

/-- `wrapper.subscribeTopic`, of the registered wrapper. -/
def subscribeTopic (b : Broker) (clientId topic : Str) (qos : ℤ) : Broker :=
  match b.getWrapper clientId with
  | none => b
  | some w => b.withCache (b.cacheService.saveRouter w.fields.thisClientId topic qos)

def unsubscribeTopic (b : Broker) (clientId topic : Str) : Broker :=
  match b.getWrapper clientId with
  | none => b
  | some w => b.withCache (b.cacheService.deleteRouter w.fields.thisClientId topic)

/-- A method of the registered wrapper of a client. -/
def onRegistered (b : Broker) (clientId : Str)
    (f : ∀ {kind}, SessionWrapper kind → SessionWrapper kind) : Broker :=
  match b.getWrapper clientId with
  | none => b
  | some wrapper =>
      match b.onWrapper f wrapper with
      | some (wrapper', b') => b'.putWrapper clientId wrapper'
      | none => b

/-- `handleLocalPublishMessage`, run without anything in between. -/
def handleLocalPublishMessage (b : Broker) (clientId : Str) (message : MqttMessage)
    (qos : MqttQoS) : Broker :=
  match b.getWrapper clientId with
  | some _ => b.onRegistered clientId fun w => w.publishMessage message qos
  | none =>
      if b.cacheService.isPersistentSession clientId then
        (b.withCache (b.cacheService.enqueue message clientId qos).2).onRegistered clientId
          fun w => w.publishCachedMessage
      else b

/-- `receiveQos2Message`, of the registered wrapper. -/
def receiveQos2Message (b : Broker) (clientId : Str) (awaitMessage : MqttAwaitMessage) : Broker :=
  match b.getWrapper clientId with
  | none => b
  | some (.transient fields queue inflights awaits) =>
      let result := ExpiringMap.putExt
        ⟨awaits, ExpiringMap.sizeOf b.cacheService.config.sessionAwaitRelMaxCapacity⟩
        awaitMessage.messageId awaitMessage
      b.putWrapper clientId (.transient fields queue inflights result.2.entries)
  | some (.persistent fields) =>
      match b.cacheService.awaitCache.get fields.thisClientId with
      | none => b
      | some awaits =>
          let result := awaits.put awaitMessage.messageId awaitMessage
          b.withCache { b.cacheService with
            awaitCache := b.cacheService.awaitCache.put fields.thisClientId result.2 }

/-- `releaseQos2Message`, of the registered wrapper: the await message is taken out. -/
def releaseQos2Message (b : Broker) (clientId : Str) (messageId : ℤ) :
    Option MqttAwaitMessage × Broker :=
  match b.getWrapper clientId with
  | none => (none, b)
  | some (.transient fields queue inflights awaits) =>
      (awaits.get messageId,
        b.putWrapper clientId (.transient fields queue inflights (awaits.remove messageId)))
  | some (.persistent fields) =>
      match b.cacheService.awaitCache.get fields.thisClientId with
      | none => (none, b)
      | some awaits =>
          let result := awaits.remove messageId
          (result.1, b.withCache { b.cacheService with
            awaitCache := b.cacheService.awaitCache.put fields.thisClientId result.2 })

end Broker

end Stuart
