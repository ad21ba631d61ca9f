/-
The handlers of a standalone MQTT verticle.

A verticle holds the broker, the retained messages, the stored wills, the configuration and the
auth service, which answers a request with the authority objects it has filled in.  It calls the
handler before it returns, as `LocalAuthServiceImpl` does.  Redis, MySQL, PostgreSQL and MongoDB
answer in a callback, later or, after an exception, not at all, and the request has no
acknowledgement then; which of their callbacks answer is in `Stuart.Services.BackendCallbacks`.

Each handler runs to its end.  The log is ghost state: it notes which inbound messages `canAccess` let through,
what was handed to the await store and to the routing, and which subscriptions were made.

Metrics, acknowledgements to the client and the connection cache are left out.
-/
import Stuart.Services.SessionService
import Stuart.Services.LocalAuthService
import Stuart.Caches.RetainCache
import Stuart.Caches.WillCache

namespace Stuart

open List Lib TopicUtil AuthUtil

/-- The configuration values that the handlers read. -/
structure MqttConfig where
  isAuthAclAllowNomatch : Bool
  isSessionUpgradeQos : Bool
  mqttRetainMaxPayload : ℤ
  mqttRetainMaxCapacity : ℤ
deriving DecidableEq

structure MqttPublishMessage where
  topicName : Str
  messageId : ℤ
  payload : List UInt8
  qosLevel : MqttQoS
  isDup : Bool
  isRetain : Bool
deriving DecidableEq

structure MqttTopicSubscription where
  topicName : Str
  qualityOfService : MqttQoS
deriving DecidableEq

/-- An auth service that answers at once, by its answers to one request and to a list of
requests. -/
structure AuthService where
  access : MqttClient → MqttAuthority → MqttAuthority
  accessList : MqttClient → List MqttAuthority → List MqttAuthority

def LocalAuthService.service (s : AclCache) : AuthService :=
  ⟨LocalAuthService.access s, LocalAuthService.accessList s⟩

/-! ### Conversions of `MsgUtil` -/

/-- `new MqttMessage()` with the fields that every conversion sets. -/
def MqttMessage.create (topic : Str) (payload : List UInt8) (qos : MqttQoS) (dup retain : Bool) :
    MqttMessage :=
  { uid := 0, clientId := [], messageId := 0, topic, payload, qos, dup, retain, status := 0
    retry := 0 }

def MqttPublishMessage.convert2MqttMessage (message : MqttPublishMessage) : MqttMessage :=
  .create message.topicName message.payload message.qosLevel message.isDup message.isRetain

def MqttPublishMessage.convert2MqttAwaitMessage (message : MqttPublishMessage) (clientId : Str) :
    MqttAwaitMessage :=
  { clientId, messageId := message.messageId, topic := message.topicName
    payload := message.payload, qos := message.qosLevel, dup := message.isDup
    retain := message.isRetain }

def MqttPublishMessage.convert2MqttRetainMessage (message : MqttPublishMessage) :
    MqttRetainMessage :=
  { topic := message.topicName, payload := message.payload, qos := message.qosLevel.value
    dup := message.isDup }

def MqttAwaitMessage.convert2MqttMessage (message : MqttAwaitMessage) : MqttMessage :=
  .create message.topic message.payload message.qos message.dup message.retain

def MqttRetainMessage.convert2MqttMessage (message : MqttRetainMessage) : MqttMessage :=
  .create message.topic message.payload (MqttQoS.valueOf message.qos) message.dup true

def MqttWillMessage.convert2MqttMessage (message : MqttWillMessage) : MqttMessage :=
  .create message.topic message.payload message.qos false message.retain

/-- `publishRetainMessage`. -/
def SessionWrapper.publishRetainMessage {kind : SessionKind} (w : SessionWrapper kind)
    (retains : List MqttMessage) : SessionWrapper kind :=
  let result := retains.foldl (fun (acc : ℕ × SessionWrapper kind) message =>
    let handled := { acc.2 with ledger := acc.2.ledger.accept message.qos }.handleMessage
      (acc.2.copyMqttMessage message message.qos)
    (if handled.1 = MsgConst.ENQUEUE_SUCCEEDED then acc.1 + 1 else acc.1, handled.2)) (0, w)
  if result.1 > 0 then result.2.publishCachedMessage else result.2

/-! ### The verticle -/

/-- A message as it comes from a client: a PUBLISH, or the will of its CONNECT. -/
inductive Inbound where
  | publish (message : MqttPublishMessage)
  | will (will : MqttWill)
deriving DecidableEq

/-- Where a message that is handed to the routing comes from. -/
inductive Origin where
  | publish (client : MqttClient) (message : MqttPublishMessage)
  | release (message : MqttAwaitMessage)
  | will (message : MqttWillMessage)
deriving DecidableEq

inductive Event where
  /-- `canAccess` returned true for publishing the message -/
  | allowed (client : MqttClient) (inbound : Inbound)
  /-- the message was handed to `receiveQos2Message` -/
  | received (client : MqttClient) (message : MqttPublishMessage)
  /-- the message was handed to `getRoutes` and `handleLocalPublishMessage` -/
  | routed (origin : Origin)
  | subscribed (client : MqttClient) (topic : Str) (qos : ℤ)
deriving DecidableEq

/-- What the verticle reads of an endpoint besides its state. -/
structure MqttConnection where
  client : MqttClient
  will : Option MqttWill
deriving DecidableEq

structure Verticle where
  config : MqttConfig
  authService : Option AuthService
  broker : Broker
  retainCache : RetainCache
  willCache : WillCache
  /-- by the numbers of the endpoints -/
  connections : List MqttConnection
  log : List Event

namespace Verticle

def client (v : Verticle) (id : ℕ) : Option MqttClient :=
  v.connections[id]?.map MqttConnection.client

def note (v : Verticle) (event : Event) : Verticle := { v with log := v.log ++ [event] }

def withBroker (v : Verticle) (broker : Broker) : Verticle := { v with broker := broker }

/-- `getRoutes`, and `handleLocalPublishMessage` of the routes. -/
def route (v : Verticle) (origin : Origin) (topic : Str) (qos : MqttQoS) (message : MqttMessage) :
    Verticle :=
  let routes := v.broker.cacheService.routerCache.getRoutes v.config.isSessionUpgradeQos topic
    qos.value
  (v.note (.routed origin)).withBroker (routes.foldl (fun b route =>
    b.handleLocalPublishMessage route.clientId message (MqttQoS.valueOf route.qos)) v.broker)

def handleRetainMessage (v : Verticle) (message : MqttPublishMessage) : Verticle :=
  if !message.isRetain then v
  else if (message.payload.length : ℤ) > v.config.mqttRetainMaxPayload then v
  else if message.payload.isEmpty then
    { v with retainCache := v.retainCache.delete message.topicName }
  else
    let retain := message.convert2MqttRetainMessage
    { v with retainCache := v.retainCache.save v.config.mqttRetainMaxCapacity retain }

/-- The answer to a request to publish; without a service it is the request itself. -/
def checkResult (v : Verticle) (client : MqttClient) (topic : Str) : MqttAuthority :=
  match v.authService with
  | some service => service.access client (.create topic)
  | none => .create topic

def handlePublish (v : Verticle) (id : ℕ) (message : MqttPublishMessage) : Verticle :=
  match v.client id with
  | none => v
  | some client =>
      if !checkPublishTopic message.topicName then v
      else if !canAccess v.config.isAuthAclAllowNomatch .pub
          (some (v.checkResult client message.topicName)) then v
      else
        let v := (v.note (.allowed client (.publish message))).handleRetainMessage message
        if message.qosLevel = .exactlyOnce then
          -- the message waits for its PUBREL, or is lost without a wrapper
          match v.broker.getWrapper client.clientId with
          | none => v
          | some _ =>
              (v.note (.received client message)).withBroker (v.broker.receiveQos2Message
                client.clientId (message.convert2MqttAwaitMessage client.clientId))
        else v.route (.publish client message) message.topicName message.qosLevel
          message.convert2MqttMessage

def handlePublishRelease (v : Verticle) (id : ℕ) (messageId : ℤ) : Verticle :=
  match v.client id with
  | none => v
  | some client =>
      let released := v.broker.releaseQos2Message client.clientId messageId
      match released.1 with
      | none => v.withBroker released.2
      | some await =>
          (v.withBroker released.2).route (.release await) await.topic await.qos
            await.convert2MqttMessage

def handleWillPublish (v : Verticle) (id : ℕ) : Verticle :=
  match v.client id with
  | none => v
  | some client =>
      match v.willCache.getWill client.clientId with
      | none => v
      | some will =>
          let v := v.route (.will will) will.topic will.qos will.convert2MqttMessage
          { v with willCache := v.willCache.deleteWill client.clientId false }

/-- The end of a connection, and `handleClose`. -/
def handleClose (v : Verticle) (id : ℕ) : Verticle :=
  let v := (v.withBroker (v.broker.disconnect id)).handleWillPublish id
  v.withBroker (v.broker.closeSession id)

/-- A CONNECT that `handleEndpoint` lets through. -/
def handleAccept (v : Verticle) (connection : MqttConnection) (cleanSession : Bool) : Verticle :=
  let id := v.broker.endpoints.length
  { v with
    broker := (v.broker.handleAccept connection.client.clientId cleanSession).2
    willCache := v.willCache.handleWillMessage connection.client.clientId id connection.will
    connections := v.connections ++ [connection] }

/-! ### Subscriptions -/

/-- The requests of a SUBSCRIBE; a filter that is not accepted gets the failure code. -/
def authorities (subs : List MqttTopicSubscription) : List MqttAuthority :=
  subs.map fun sub => (MqttAuthority.create sub.topicName).setQos
    (if checkSubscribeTopic sub.topicName then sub.qualityOfService.value else MqttQoS.FAILURE)

/-- The answers to the requests of a SUBSCRIBE. -/
def checkResults (v : Verticle) (client : MqttClient) (subs : List MqttTopicSubscription) :
    List MqttAuthority :=
  let count := subs.countP fun sub => checkSubscribeTopic sub.topicName
  match v.authService with
  | some service =>
      -- the service is not asked when every filter has the failure code
      if count > 0 then service.accessList client (authorities subs) else authorities subs
  | none => authorities subs

def granted (allowNomatch : Bool) (result : MqttAuthority) : Bool :=
  decide (result.qos ≠ MqttQoS.FAILURE) && canAccess allowNomatch .sub (some result)

def handlePublishRetainMessage (v : Verticle) (clientId topic : Str) (qos : ℤ) : Verticle :=
  if !validateTopic topic then v
  else
    let retains := (v.retainCache.get v.config.isSessionUpgradeQos topic qos).getD []
    v.withBroker (v.broker.onRegistered clientId fun w =>
      w.publishRetainMessage (retains.map MqttRetainMessage.convert2MqttMessage))

/-- The loop over the answers: the codes of the SUBACK, and the verticle afterwards.  Without a
wrapper the first subscription that is granted ends it with an exception. -/
def subscribeAll (client : MqttClient) : Verticle → List MqttAuthority → List ℤ × Verticle
  | v, [] => ([], v)
  | v, result :: results =>
      if granted v.config.isAuthAclAllowNomatch result then
        match v.broker.getWrapper client.clientId with
        | none => ([result.qos], v)
        | some _ =>
            let v := (v.note (.subscribed client result.topic result.qos)).withBroker
              (v.broker.subscribeTopic client.clientId result.topic result.qos)
            let v := v.handlePublishRetainMessage client.clientId result.topic result.qos
            let rest := subscribeAll client v results
            (result.qos :: rest.1, rest.2)
      else
        let rest := subscribeAll client v results
        (MqttQoS.FAILURE :: rest.1, rest.2)

/-- The codes of the SUBACK, and the verticle afterwards. -/
def handleSubscribe (v : Verticle) (id : ℕ) (subs : List MqttTopicSubscription) :
    List ℤ × Verticle :=
  match v.client id with
  | none => ([], v)
  | some client => subscribeAll client v (v.checkResults client subs)

def handleUnsubscribe (v : Verticle) (id : ℕ) (topics : List Str) : Verticle :=
  match v.client id with
  | none => v
  | some client =>
      v.withBroker (topics.foldl (fun b topic => b.unsubscribeTopic client.clientId topic) v.broker)

/-! ### What the handlers note -/

variable (v : Verticle)

@[simp] lemma log_note (event : Event) : (v.note event).log = v.log ++ [event] := rfl

@[simp] lemma log_withBroker (broker : Broker) : (v.withBroker broker).log = v.log := rfl

@[simp] lemma config_withBroker (broker : Broker) : (v.withBroker broker).config = v.config := rfl

@[simp] lemma broker_withBroker (broker : Broker) : (v.withBroker broker).broker = broker := rfl

@[simp] lemma log_route (origin : Origin) (topic : Str) (qos : MqttQoS) (message : MqttMessage) :
    (v.route origin topic qos message).log = v.log ++ [.routed origin] := rfl

@[simp] lemma log_handleRetainMessage (message : MqttPublishMessage) :
    (v.handleRetainMessage message).log = v.log := by
  simp only [handleRetainMessage]
  split_ifs <;> rfl

@[simp] lemma broker_handleRetainMessage (message : MqttPublishMessage) :
    (v.handleRetainMessage message).broker = v.broker := by
  simp only [handleRetainMessage]
  split_ifs <;> rfl

@[simp] lemma log_handlePublishRetainMessage (clientId topic : Str) (qos : ℤ) :
    (v.handlePublishRetainMessage clientId topic qos).log = v.log := by
  simp only [handlePublishRetainMessage]
  split_ifs <;> rfl

@[simp] lemma config_handlePublishRetainMessage (clientId topic : Str) (qos : ℤ) :
    (v.handlePublishRetainMessage clientId topic qos).config = v.config := by
  simp only [handlePublishRetainMessage]
  split_ifs <;> rfl

end Verticle

end Stuart
