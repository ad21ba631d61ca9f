/-
The access control list: its rules, the Ignite cache that stores them, and the query for the
rules of one client.

A rule is stored under its sequence number.  The query returns the rules whose target is the
username, the address or the id of the client, or all clients, those with the largest sequence
number first; so the first rule of the answer with some property is the one with the largest
number among all that have it (`AclCache.seq_le_of_find?_get`).
-/
import Stuart.Utils.TopicUtil
import Stuart.Lib.PlainMap
import Mathlib.Data.List.Sort

namespace Stuart

open List Lib

inductive Access where
  | sub
  | pub
  | subPub
deriving DecidableEq, Repr

namespace Access

def value : Access → ℤ
  | .sub => 1
  | .pub => 2
  | .subPub => 3

def valueOf (value : ℤ) : Option Access :=
  if value = 1 then some .sub
  else if value = 2 then some .pub
  else if value = 3 then some .subPub
  else none

@[simp] lemma valueOf_value (access : Access) : valueOf access.value = some access := by
  cases access <;> rfl

end Access

inductive Authority where
  | deny
  | allow
deriving DecidableEq, Repr

namespace Authority

def value : Authority → ℤ
  | .deny => 0
  | .allow => 1

def valueOf (value : ℤ) : Option Authority :=
  if value = 0 then some .deny
  else if value = 1 then some .allow
  else none

@[simp] lemma valueOf_value (authority : Authority) : valueOf authority.value = some authority := by
  cases authority <;> rfl

end Authority

inductive Target where
  | username
  | ipAddr
  | clientId
  | all
deriving DecidableEq, Repr

def Target.value : Target → ℤ
  | .username => 1
  | .ipAddr => 2
  | .clientId => 3
  | .all => 4

namespace AclConst

def ALL : Str := ['$', 'a', 'l', 'l']

def LOCAL_ADDRESS : Str := ['1', '2', '7', '.', '0', '.', '0', '.', '1']

def POUND : Str := ['#']

def EQ_PREFIX : Str := ['e', 'q', '(']

def EQ_SUFFIX : Str := [')']

def EQ_POUND : Str := EQ_PREFIX ++ POUND ++ EQ_SUFFIX

def SYS_SLASH_POUND : Str := ['$', 'S', 'Y', 'S', '/'] ++ POUND

end AclConst

/-- A rule; target type, access and authority are the stored numbers, which need not be those of
a constant. -/
structure MqttAcl where
  seq : ℤ
  target : Str
  type : ℤ
  topic : Str
  access : ℤ
  authority : ℤ
deriving DecidableEq

/-- What the broker knows of a client when it asks for its rules; a connection without
authentication data has no username. -/
structure MqttClient where
  username : Option Str
  ipAddr : Str
  clientId : Str
deriving DecidableEq

/-- The Ignite cache of the rules and the sequence that numbers them. -/
structure AclCache where
  cache : PlainMap ℤ MqttAcl
  sequence : ℤ
  keyed : ∀ seq acl, cache.get seq = some acl → acl.seq = seq

/-- The condition of the query: one of the four targets, under its own type.  An absent username
is equal to no target. -/
def MqttAcl.targets (acl : MqttAcl) (client : MqttClient) : Bool :=
  (some acl.target == client.username && acl.type == Target.username.value) ||
  (acl.target == client.ipAddr && acl.type == Target.ipAddr.value) ||
  (acl.target == client.clientId && acl.type == Target.clientId.value) ||
  (acl.target == AclConst.ALL && acl.type == Target.all.value)

namespace AclCache

def empty : AclCache := ⟨∅, 0, by simp⟩

/-- `cache.put(acl.getSeq(), acl)`. -/
def put (s : AclCache) (acl : MqttAcl) : AclCache where
  cache := s.cache.put acl.seq acl
  sequence := s.sequence
  keyed := by
    intro seq acl' h
    rw [PlainMap.get_put] at h
    split_ifs at h with heq
    · cases h
      exact heq.symm
    · exact s.keyed seq acl' h

/-- `add`: the rule is numbered by the sequence. -/
def add (s : AclCache) (acl : MqttAcl) : AclCache :=
  { s with sequence := s.sequence + 1 }.put { acl with seq := s.sequence + 1 }

def delete (s : AclCache) (seq : ℤ) : AclCache where
  cache := s.cache.remove seq
  sequence := s.sequence
  keyed := by
    intro seq' acl h
    rw [PlainMap.get_remove] at h
    split_ifs at h
    exact s.keyed seq' acl h

def update (s : AclCache) (acl : MqttAcl) : AclCache :=
  if s.cache.containsKey acl.seq then s.put acl else s

def reorder (s : AclCache) (acls : List MqttAcl) : AclCache := acls.foldl put s

/-- The rules that `init` stores, the first one first; `add` numbers them. -/
def initRules : List MqttAcl :=
  [⟨0, AclConst.ALL, Target.all.value, AclConst.POUND, Access.subPub.value,
      Authority.allow.value⟩,
    ⟨0, AclConst.ALL, Target.all.value, AclConst.EQ_POUND, Access.sub.value, Authority.deny.value⟩,
    ⟨0, AclConst.ALL, Target.all.value, AclConst.SYS_SLASH_POUND, Access.sub.value,
      Authority.deny.value⟩,
    ⟨0, AclConst.LOCAL_ADDRESS, Target.ipAddr.value, AclConst.POUND, Access.subPub.value,
      Authority.allow.value⟩,
    ⟨0, AclConst.LOCAL_ADDRESS, Target.ipAddr.value, AclConst.SYS_SLASH_POUND,
      Access.subPub.value, Authority.allow.value⟩]

/-- `init`: a list that was used before is left alone. -/
def init (s : AclCache) : AclCache :=
  if s.cache.values.length > 0 ∨ s.sequence > 0 then s else initRules.foldl add s

/-- `get`: the rules of a client, the largest sequence number first.  Only topic, access and
authority of a rule are read by the callers. -/
def get (s : AclCache) (client : MqttClient) : List MqttAcl :=
  (s.cache.values.filter fun acl => acl.targets client).insertionSort fun a b => b.seq ≤ a.seq

/-! ### The answer of the query -/

lemma mem_get (s : AclCache) (client : MqttClient) (acl : MqttAcl) :
    acl ∈ s.get client ↔ acl ∈ s.cache.values ∧ acl.targets client = true := by
  rw [get, mem_insertionSort, mem_filter]

/-- The answer is sorted by falling sequence numbers. -/
lemma pairwise_get (s : AclCache) (client : MqttClient) :
    (s.get client).Pairwise fun a b => b.seq ≤ a.seq := by
  have : Std.Total fun a b : MqttAcl => b.seq ≤ a.seq := ⟨fun a b => le_total b.seq a.seq⟩
  have : IsTrans MqttAcl fun a b => b.seq ≤ a.seq := ⟨fun _ _ _ hab hbc => le_trans hbc hab⟩
  exact pairwise_insertionSort _ _

/-- The first rule of the answer with a property has the largest number among those with it. -/
lemma seq_le_of_find?_get {s : AclCache} {client : MqttClient} {p : MqttAcl → Bool}
    {acl : MqttAcl} (h : (s.get client).find? p = some acl) {other : MqttAcl}
    (hother : other ∈ s.get client) (hp : p other = true) : other.seq ≤ acl.seq := by
  obtain ⟨-, front, back, heq, hfront⟩ := find?_eq_some_iff_append.1 h
  have hsorted := s.pairwise_get client
  rw [heq, pairwise_append] at hsorted
  rw [heq, mem_append, mem_cons] at hother
  rcases hother with hin | rfl | hin
  · have := hfront other hin
    simp [hp] at this
  · exact le_refl _
  · exact (pairwise_cons.1 hsorted.2.1).1 other hin

end AclCache

end Stuart
