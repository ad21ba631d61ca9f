/-
What happens to the session of one client.

Messages are handed to it: those that the routing has a subscription for, the retained ones for a
new subscription, and, while a persistent session is offline, those that go to its stored queue.
The client answers with its packets, the timers run out, and connections come and go.  When the
client of a persistent session connects again its wrapper is used again, or a new one is built over
what is stored; either way it is opened while the new endpoint is not accepted yet.
-/
import Stuart.Lib.Runs
import Stuart.Sessions.MethodRule
import Stuart.Verticles.MqttVerticle

namespace Stuart

open List Lib

/-- The message that is routed. -/
def Origin.message : Origin → MqttMessage
  | .publish _ message => message.convert2MqttMessage
  | .release message => message.convert2MqttMessage
  | .will message => message.convert2MqttMessage

lemma Origin.message_retry (origin : Origin) : origin.message.retry = 0 := by
  cases origin <;> rfl

namespace Deliveries

open SessionWrapper

variable {kind : SessionKind}

inductive Op where
  | publishMessage (origin : Origin) (qos : MqttQoS)
  | publishRetainMessage (retains : List MqttRetainMessage)
  /-- `enqueue` of the queue cache, for a client that is offline -/
  | storeMessage (origin : Origin) (qos : MqttQoS)
  | receivePuback (messageId : ℤ)
  | receivePubrec (messageId : ℤ)
  | receivePubcomp (messageId : ℤ)
  | publishRelease (messageId : ℤ)
  | retry (messageId : ℤ)
  | publishCachedMessage
  /-- the endpoint is accepted or lost -/
  | connectivity (isConnected : Bool)
  /-- the client connects again, and the wrapper is used again, or one with this configuration is
  built -/
  | reconnect (config : Option Config)
deriving DecidableEq

/-- The stored queue of a persistent session after an offer; the QoS that is looked at is that of
the message, not the one of the subscription. -/
def storeMessage : {kind : SessionKind} → SessionWrapper kind → MqttMessage → MqttQoS →
    Option (SessionWrapper kind)
  | .transient, _, _, _ => none
  | .persistent, w, message, qos => some { w with
      queue :=
        if message.qos = .atMostOnce && !w.config.sessionQueueStoreQos0 then w.queue
        else (BoundedIgniteQueue.addExt w.queue (w.copyMqttMessage message qos)).2
      ledger := w.ledger.accept qos }

/-- A persistent wrapper with the endpoint of the next connection, before it is opened. -/
def reconnected (w : SessionWrapper .persistent) : Option Config → SessionWrapper .persistent
  | none => PersistentSessionWrapper.refreshEndpoint w
      (.create (w.endpoint.id + 1) w.thisClientId false)
  | some config => PersistentSessionWrapper.new config
      (.create (w.endpoint.id + 1) w.thisClientId false) w.queue.items w.inflights w.ledger

def reconnect : {kind : SessionKind} → SessionWrapper kind → Option Config →
    Option (SessionWrapper kind)
  | .transient, _, _ => none
  | .persistent, w, config => some (PersistentSessionWrapper.openWrapper (reconnected w config))

def perform (w : SessionWrapper kind) : Op → Option (SessionWrapper kind)
  | .publishMessage origin qos => some (w.publishMessage origin.message qos)
  | .publishRetainMessage retains =>
      some (w.publishRetainMessage (retains.map MqttRetainMessage.convert2MqttMessage))
  | .storeMessage origin qos => storeMessage w origin.message qos
  | .receivePuback messageId => some (w.receivePuback messageId)
  | .receivePubrec messageId => some (w.receivePubrec messageId)
  | .receivePubcomp messageId => some (w.receivePubcomp messageId)
  | .publishRelease messageId => some (w.publishRelease messageId).2
  | .retry messageId => some (w.retry messageId)
  | .publishCachedMessage => some w.publishCachedMessage
  | .connectivity isConnected =>
      some { w with endpoint := { w.endpoint with isConnected := isConnected } }
  | .reconnect config => reconnect w config

/-- The wrapper of a new session; of a persistent one nothing is stored yet. -/
def start (config : Config) (clientId : Str) : (kind : SessionKind) → SessionWrapper kind
  | .transient => TransientSessionWrapper.new config (.create 0 clientId true)
  | .persistent => PersistentSessionWrapper.new config (.create 0 clientId false) []
      (.create config.sessionInflightMaxCapacity) .empty

lemma queue_start (config : Config) (clientId : Str) (kind : SessionKind) :
    (start config clientId kind).queue.items = [] := by
  cases kind with
  | transient => rfl
  | persistent => exact sublist_nil.1 (openQueue_sublist config.sessionQueueMaxCapacity [])

lemma get_start (config : Config) (clientId : Str) (kind : SessionKind) (key : ℤ) :
    (start config clientId kind).inflights.get key = none := by
  cases kind <;> exact PlainMap.get_empty key

lemma endpoint_start (config : Config) (clientId : Str) (kind : SessionKind) :
    (start config clientId kind).endpoint.InRange ∧
      (start config clientId kind).endpoint.written = [] := by
  cases kind <;> exact ⟨MqttEndpoint.inRange_create _ _ _, rfl⟩

lemma accepted_start (config : Config) (clientId : Str) (kind : SessionKind) :
    (start config clientId kind).ledger.accepted = [] := by
  cases kind <;> rfl

/-! ### Retained messages -/

/-- The loop of `publishRetainMessage`. -/
def handleRetains (w : SessionWrapper kind) (retains : List MqttMessage) : SessionWrapper kind :=
  retains.foldl (fun w message => ({ w with ledger := w.ledger.accept message.qos }.handleMessage
    (w.copyMqttMessage message message.qos)).2) w

lemma publishRetainMessage_eq (w : SessionWrapper kind) (retains : List MqttMessage) :
    w.publishRetainMessage retains = handleRetains w retains ∨
      w.publishRetainMessage retains = (handleRetains w retains).publishCachedMessage := by
  have hloop : ∀ (retains : List MqttMessage) (count : ℕ) (w : SessionWrapper kind),
      (retains.foldl (fun (acc : ℕ × SessionWrapper kind) message =>
        let handled := { acc.2 with ledger := acc.2.ledger.accept message.qos }.handleMessage
          (acc.2.copyMqttMessage message message.qos)
        (if handled.1 = MsgConst.ENQUEUE_SUCCEEDED then acc.1 + 1 else acc.1, handled.2))
          (count, w)).2 = handleRetains w retains := by
    intro retains
    induction retains with
    | nil => exact fun count w => rfl
    | cons message retains ih => exact fun count w => ih _ _
  rw [SessionWrapper.publishRetainMessage]
  dsimp only
  split_ifs
  · exact Or.inr (congrArg SessionWrapper.publishCachedMessage (hloop retains 0 w))
  · exact Or.inl (hloop retains 0 w)

/-! ### The stored queue -/

/-- What an offer to the stored queue keeps: the message waits there, or nothing is stored. -/
lemma kept_storeMessage {w w' : SessionWrapper .persistent} {message : MqttMessage} {qos : MqttQoS}
    {I : SessionWrapper .persistent → List MqttMessage → Prop}
    {Ready : SessionWrapper .persistent → List MqttMessage → MqttMessage → Prop}
    (R : MethodRule I Ready)
    (h : Ready { w with ledger := w.ledger.accept qos } w.queue.items
      (w.copyMqttMessage message qos))
    (hwait : (message.qos = .atMostOnce → w.config.sessionQueueStoreQos0 = true) →
      I { w with ledger := w.ledger.accept qos }
        (w.queue.items ++ [w.copyMqttMessage message qos]))
    (hw : storeMessage w message qos = some w') :
    I w' w'.queue.items ∧ w'.endpoint = w.endpoint := by
  obtain rfl := Option.some.inj hw
  refine ⟨?_, rfl⟩
  by_cases hrefused : (message.qos = .atMostOnce && !w.config.sessionQueueStoreQos0) = true
  · simp only [if_pos hrefused]
    exact R.inv h
  · simp only [if_neg hrefused]
    have hstored := hwait (by simpa using hrefused)
    exact R.same (R.sublist hstored (addExt_sublist w _)) ⟨rfl, rfl, rfl, rfl⟩

/-! ### The endpoint -/

lemma inRange_reconnected (w : SessionWrapper .persistent) (config : Option Config) :
    (reconnected w config).endpoint.InRange := by
  cases config <;> exact MqttEndpoint.inRange_create _ _ _

lemma not_connected_reconnected (w : SessionWrapper .persistent) (config : Option Config) :
    (reconnected w config).endpoint.isConnected = false := by
  cases config <;> rfl

lemma get_reconnected (w : SessionWrapper .persistent) (config : Option Config) (key : ℤ) :
    (reconnected w config).inflights.get key = w.inflights.get key := by
  cases config <;> rfl

lemma queue_reconnected_sublist (w : SessionWrapper .persistent) (config : Option Config) :
    (reconnected w config).queue.items <+ w.queue.items := by
  cases config with
  | none => exact Sublist.refl _
  | some config => exact openQueue_sublist config.sessionQueueMaxCapacity w.queue.items

/-- The PUBLISH of the sample runs. -/
def samplePublish (dup retain : Bool) : Origin :=
  .publish ⟨none, [], ['p']⟩ ⟨['t'], 1, [1], .atLeastOnce, dup, retain⟩

end Deliveries

end Stuart
