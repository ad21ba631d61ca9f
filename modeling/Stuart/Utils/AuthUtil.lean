/-
The two decisions of `AuthUtil`: whether a topic falls under the topic of a rule, and whether an
authority that the auth service has filled in grants an access.
-/
import Stuart.Caches.AclCache
import Stuart.Functions.TopicMatchFunction

namespace Stuart

open List Lib TopicUtil TopicMatchFunction

/-- A request to the auth service and its answer; access and authority stay unset when no rule
matches the topic. -/
structure MqttAuthority where
  topic : Str
  qos : ℤ
  access : Option Access
  authority : Option Authority
deriving DecidableEq

namespace MqttAuthority

/-- `new MqttAuthority()` with the topic set. -/
def create (topic : Str) : MqttAuthority := ⟨topic, 0, none, none⟩

def setQos (auth : MqttAuthority) (qos : ℤ) : MqttAuthority := { auth with qos := qos }

@[simp] lemma create_topic (topic : Str) : (create topic).topic = topic := rfl

@[simp] lemma setQos_topic (auth : MqttAuthority) (qos : ℤ) :
    (auth.setQos qos).topic = auth.topic := rfl

@[simp] lemma setQos_qos (auth : MqttAuthority) (qos : ℤ) : (auth.setQos qos).qos = qos := rfl

end MqttAuthority

namespace AuthUtil

/-- The topic between the brackets of `eq(…)`. -/
def eqTopic (filter : Str) : Str :=
  (filter.drop AclConst.EQ_PREFIX.length).take
    (filter.length - AclConst.EQ_SUFFIX.length - AclConst.EQ_PREFIX.length)

/-- The topic of a rule is of the form `eq(…)`. -/
def isEq (filter : Str) : Bool :=
  AclConst.EQ_PREFIX.isPrefixOf filter && AclConst.EQ_SUFFIX.isSuffixOf filter

def isMatch (topic filter : Str) : Bool :=
  if !validateTopic topic || !validateTopic filter then false
  else if isEq filter then topic == eqTopic filter
  else topicMatch topic filter == 1

/-- `canAccess`, with the flag `isAuthAclAllowNomatch` of the configuration. -/
def canAccess (allowNomatch : Bool) (access : Access) : Option MqttAuthority → Bool
  | none => allowNomatch
  | some authority =>
      let dstAccess := authority.access
      let dstAuthority := authority.authority
      if access = .sub ∧ (dstAccess = some .sub ∨ dstAccess = some .subPub) ∧
          dstAuthority = some .deny then false
      else if access = .pub ∧ (dstAccess = some .pub ∨ dstAccess = some .subPub) ∧
          dstAuthority = some .deny then false
      else true

/-- An access kind covers another one: it is that one or the one for both. -/
def covers (dst : Option Access) (access : Access) : Prop := dst = some access ∨ dst = some .subPub

instance (dst : Option Access) (access : Access) : Decidable (covers dst access) :=
  inferInstanceAs (Decidable (_ ∨ _))

/-- An authority object refuses an access only if it covers it and denies. -/
lemma canAccess_some {allowNomatch : Bool} {access : Access} (ha : access = .sub ∨ access = .pub)
    (auth : MqttAuthority) :
    canAccess allowNomatch access (some auth) = true ↔
      ¬(covers auth.access access ∧ auth.authority = some .deny) := by
  rcases ha with rfl | rfl <;> simp only [canAccess, covers] <;> grind

end AuthUtil

end Stuart
