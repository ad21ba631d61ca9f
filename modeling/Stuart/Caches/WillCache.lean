/-
The stored wills: the Ignite cache and what a CONNECT does to it.

A will is stored under the client id alone.  A CONNECT with a will that has a payload replaces
what is stored, one with an empty will removes it, and one without a will leaves it.  A stored
will carries the ghost number of the connection that registered it, which no function reads.
-/
import Stuart.Caches.RouterCache
import Stuart.Entities.MqttMessage

namespace Stuart

open Lib

/-- The will of a CONNECT; a missing payload is an empty one. -/
structure MqttWill where
  isWillFlag : Bool
  willTopic : Str
  willMessage : List UInt8
  willQos : MqttQoS
  isWillRetain : Bool
deriving DecidableEq

structure MqttWillMessage where
  /-- ghost: which connection registered this will -/
  connection : ℕ
  clientId : Str
  topic : Str
  payload : List UInt8
  qos : MqttQoS
  retain : Bool
deriving DecidableEq

/-- A will that is stored: it is flagged and has a payload. -/
def MqttWill.nonEmpty (will : MqttWill) : Prop := will.isWillFlag = true ∧ will.willMessage ≠ []

instance (will : MqttWill) : Decidable will.nonEmpty := inferInstanceAs (Decidable (_ ∧ _))

namespace MsgUtil

def convert2MqttWillMessage (message : MqttWill) (clientId : Str) (connection : ℕ) :
    MqttWillMessage :=
  { connection, clientId, topic := message.willTopic, payload := message.willMessage
    qos := message.willQos, retain := message.isWillRetain }

end MsgUtil

abbrev WillCache := PlainMap Str MqttWillMessage

namespace WillCache

def save (s : WillCache) (message : MqttWillMessage) : WillCache :=
  if !IdUtil.validateClientId message.clientId then s else s.put message.clientId message

def delete (s : WillCache) (clientId : Str) : WillCache :=
  if !IdUtil.validateClientId clientId then s else s.remove clientId

def getWill (s : WillCache) (clientId : Str) : Option MqttWillMessage :=
  if !IdUtil.validateClientId clientId then none else s.get clientId

/-- `deleteWill`; without `force` a retained will stays. -/
def deleteWill (s : WillCache) (clientId : Str) (force : Bool) : WillCache :=
  if force then s.delete clientId
  else
    match s.getWill clientId with
    | none => s
    | some will => if will.retain then s else s.delete clientId

/-- `handleWillMessage` of the CONNECT of a connection. -/
def handleWillMessage (s : WillCache) (clientId : Str) (connection : ℕ) :
    Option MqttWill → WillCache
  | none => s
  | some will =>
      if !will.isWillFlag then s
      else if will.willMessage.isEmpty then s.deleteWill clientId true
      else s.save (MsgUtil.convert2MqttWillMessage will clientId connection)

variable {s : WillCache} {clientId : Str}

lemma getWill_eq (hv : IdUtil.validateClientId clientId = true) :
    s.getWill clientId = s.get clientId := if_neg (by simp [hv])

lemma delete_eq (hv : IdUtil.validateClientId clientId = true) :
    s.delete clientId = s.remove clientId := if_neg (by simp [hv])

/-- What a CONNECT stores: its own will if that is not empty, nothing for an empty will, and what
was there before without a will. -/
lemma handleWillMessage_cases (hv : IdUtil.validateClientId clientId = true) (connection : ℕ)
    (will : Option MqttWill) :
    s.handleWillMessage clientId connection will = s ∧ (∀ w ∈ will, w.isWillFlag = false) ∨
      s.handleWillMessage clientId connection will = s.remove clientId ∧
        (∃ w ∈ will, w.isWillFlag = true ∧ w.willMessage = []) ∨
      ∃ w ∈ will, w.nonEmpty ∧ s.handleWillMessage clientId connection will =
        s.put clientId (MsgUtil.convert2MqttWillMessage w clientId connection) := by
  cases will with
  | none => exact Or.inl ⟨rfl, by simp⟩
  | some w =>
      by_cases hflag : w.isWillFlag = true
      · by_cases hempty : w.willMessage = []
        · refine Or.inr (Or.inl ⟨?_, w, rfl, hflag, hempty⟩)
          rw [handleWillMessage, if_neg (by simp [hflag]), if_pos (by simp [hempty]), deleteWill,
            if_pos rfl, delete_eq hv]
        · refine Or.inr (Or.inr ⟨w, rfl, ⟨hflag, hempty⟩, ?_⟩)
          rw [handleWillMessage, if_neg (by simp [hflag]), if_neg (by simpa using hempty)]
          exact if_neg (by simpa [MsgUtil.convert2MqttWillMessage] using hv)
      · refine Or.inl ⟨?_, by simpa using hflag⟩
        rw [handleWillMessage, if_pos (by simpa using hflag)]

end WillCache

end Stuart
