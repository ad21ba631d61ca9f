/-
Messages, the endpoint they are sent through and the packet ids.

A message carries a ghost number `uid`, which no function of the broker reads: it tells the
messages that were handed to a session apart.  The endpoint is the one of Vert.x: it is not
connected before `accept`, every PUBLISH of any QoS takes the next packet id of a cyclic counter
that starts at zero, and writing to an endpoint that is not connected fails.
-/
import Stuart.Utils.TopicUtil

namespace Stuart

/-- The configuration values that the sessions read. -/
structure Config where
  sessionQueueStoreQos0 : Bool
  sessionQueueMaxCapacity : ℤ
  sessionInflightMaxCapacity : ℤ
  sessionInflightMaxRetries : ℤ
  sessionAwaitRelMaxCapacity : ℤ
deriving DecidableEq

inductive MqttQoS where
  | atMostOnce
  | atLeastOnce
  | exactlyOnce
deriving DecidableEq, Repr

namespace MqttQoS

def value : MqttQoS → ℤ
  | .atMostOnce => 0
  | .atLeastOnce => 1
  | .exactlyOnce => 2

/-- `valueOf`, on the values of the three levels. -/
def valueOf (value : ℤ) : MqttQoS :=
  if value ≤ 0 then .atMostOnce else if value = 1 then .atLeastOnce else .exactlyOnce

/-- `MqttQoS.FAILURE.value()`, the SUBACK code 0x80. -/
def FAILURE : ℤ := 128

@[simp] lemma valueOf_value (qos : MqttQoS) : valueOf qos.value = qos := by
  cases qos <;> rfl

lemma value_ne_failure (qos : MqttQoS) : qos.value ≠ FAILURE := by
  cases qos <;> decide

end MqttQoS

namespace MsgConst

def MAX_MESSAGE_ID : ℤ := 65535

/-- The number of the packet type PUBREC. -/
def PUBREC_STATUS : ℤ := 5

def PUBLISH_ERROR : ℤ := -99

def ENQUEUE_FAILED : ℤ := -2

def ENQUEUE_SUCCEEDED : ℤ := -1

end MsgConst

structure MqttMessage where
  /-- ghost: which of the messages handed to the session this is -/
  uid : ℕ
  clientId : Str
  messageId : ℤ
  topic : Str
  payload : List UInt8
  qos : MqttQoS
  dup : Bool
  retain : Bool
  status : ℤ
  retry : ℤ
deriving DecidableEq

/-- A packet that the broker writes to a client. -/
inductive MqttPacket where
  | publish (messageId : ℤ) (uid : ℕ) (topic : Str) (payload : List UInt8) (qos : MqttQoS)
      (dup retain : Bool)
  | pubrel (messageId : ℤ)
deriving DecidableEq

structure MqttEndpoint where
  /-- which connection this is -/
  id : ℕ
  clientIdentifier : Str
  isCleanSession : Bool
  isConnected : Bool
  isClosed : Bool
  lastMessageId : ℤ
  /-- the packets written and not received by the client yet, the first one in front -/
  written : List MqttPacket
deriving DecidableEq

/-- The cyclic counter of packet ids: after zero and after the largest id comes one. -/
def nextId (current : ℤ) : ℤ := if current % MsgConst.MAX_MESSAGE_ID ≠ 0 then current + 1 else 1

namespace MqttEndpoint

/-- The endpoint of a CONNECT that has not been accepted yet. -/
def create (id : ℕ) (clientIdentifier : Str) (isCleanSession : Bool) : MqttEndpoint :=
  { id, clientIdentifier, isCleanSession, isConnected := false, isClosed := false,
    lastMessageId := 0, written := [] }

/-- `accept`; `none` for the exception on an endpoint that is closed already. -/
def accept (e : MqttEndpoint) : Option MqttEndpoint :=
  if e.isClosed then none else some { e with isConnected := true }

def close (e : MqttEndpoint) : MqttEndpoint := { e with isConnected := false, isClosed := true }

/-- `publish`: the packet takes the next id; `none` for the exception. -/
def publish (e : MqttEndpoint) (uid : ℕ) (topic : Str) (payload : List UInt8) (qos : MqttQoS)
    (dup retain : Bool) : Option MqttEndpoint :=
  if e.isConnected then
    some { e with
      lastMessageId := nextId e.lastMessageId
      written := e.written ++
        [.publish (nextId e.lastMessageId) uid topic payload qos dup retain] }
  else none

def publishRelease (e : MqttEndpoint) (messageId : ℤ) : Option MqttEndpoint :=
  if e.isConnected then some { e with written := e.written ++ [.pubrel messageId] } else none

end MqttEndpoint

namespace IdUtil

def nextMessageId (endpoint : MqttEndpoint) : ℤ :=
  if !endpoint.isConnected then -1
  else
    let current := endpoint.lastMessageId
    if current % MsgConst.MAX_MESSAGE_ID ≠ 0 then current + 1 else 1

end IdUtil

/-- The counter of the endpoint is within its range. -/
def MqttEndpoint.InRange (e : MqttEndpoint) : Prop :=
  0 ≤ e.lastMessageId ∧ e.lastMessageId ≤ MsgConst.MAX_MESSAGE_ID

namespace MqttEndpoint

lemma inRange_create (id : ℕ) (clientIdentifier : Str) (isCleanSession : Bool) :
    (create id clientIdentifier isCleanSession).InRange :=
  ⟨show (0 : ℤ) ≤ 0 by omega, show (0 : ℤ) ≤ 65535 by omega⟩

/-- An endpoint that was accepted differs from before in being connected. -/
lemma eq_of_accept {e e' : MqttEndpoint} (h : e.accept = some e') :
    e.isClosed = false ∧ e' = { e with isConnected := true } := by
  simp only [accept] at h
  split_ifs at h with hc
  exact ⟨by simpa using hc, (Option.some.inj h).symm⟩

end MqttEndpoint

lemma nextId_range {current : ℤ} (h : 0 ≤ current ∧ current ≤ MsgConst.MAX_MESSAGE_ID) :
    1 ≤ nextId current ∧ nextId current ≤ MsgConst.MAX_MESSAGE_ID := by
  simp only [nextId, MsgConst.MAX_MESSAGE_ID] at *
  split_ifs <;> omega

/-- The ids come round after 65535 steps. -/
lemma nextId_iterate {key : ℤ} (h : 1 ≤ key ∧ key ≤ MsgConst.MAX_MESSAGE_ID) (n : ℕ) :
    nextId^[n] key = (key - 1 + n) % MsgConst.MAX_MESSAGE_ID + 1 := by
  simp only [MsgConst.MAX_MESSAGE_ID] at *
  induction n with
  | zero =>
      rw [Function.iterate_zero_apply]
      omega
  | succ n ih =>
      rw [Function.iterate_succ_apply', ih]
      simp only [nextId, MsgConst.MAX_MESSAGE_ID]
      push_cast
      split_ifs <;> omega

/-- An id comes again exactly after a multiple of 65535 steps. -/
lemma nextId_iterate_eq_self_iff {key : ℤ} (h : 1 ≤ key ∧ key ≤ MsgConst.MAX_MESSAGE_ID) (n : ℕ) :
    nextId^[n] key = key ↔ 65535 ∣ n := by
  rw [nextId_iterate h]
  simp only [MsgConst.MAX_MESSAGE_ID] at *
  omega

/-- On a connected endpoint the id that `nextMessageId` foretells is the one of the next
PUBLISH, and it is positive. -/
lemma nextMessageId_of_connected {e : MqttEndpoint} (hc : e.isConnected = true) (h : e.InRange) :
    IdUtil.nextMessageId e = nextId e.lastMessageId ∧ 0 < IdUtil.nextMessageId e := by
  have hnext : IdUtil.nextMessageId e = nextId e.lastMessageId := by
    simp only [IdUtil.nextMessageId]
    rw [if_neg (by simp [hc])]
    rfl
  have hrange := (nextId_range h).1
  exact ⟨hnext, by omega⟩

lemma nextMessageId_of_not_connected {e : MqttEndpoint} (hc : e.isConnected = false) :
    IdUtil.nextMessageId e = -1 := if_pos (by simp [hc])

end Stuart
