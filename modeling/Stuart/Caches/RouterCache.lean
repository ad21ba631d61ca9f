/-
The router cache: the table of subscriptions and the counted trie of the wildcard filters.

`RouterCache.save` and `RouterCache.delete` keep the two in step.  A wildcard filter adds one
reference to every node on its path when its router is new and takes them back when the
router goes.  The two Ignite caches are plain maps, and a transaction is one step.  `getRoutes`
looks a topic up: the trie walk yields the set of filter strings that may match, and the SQL
query selects the routers whose topic is one of these strings.
-/
import Stuart.Utils.TopicUtil
import Stuart.Lib.PlainMap
import Mathlib.Data.Finset.Dedup
import Mathlib.Data.Finset.Empty

namespace Stuart

open List Lib TopicConst TopicUtil

/-- A node id. -/
abbrev UUID := ℕ

namespace IdUtil

def validateClientId (clientId : Str) : Bool := !clientId.isEmpty

end IdUtil

structure MqttRouterKey where
  clientId : Str
  topic : Str
deriving DecidableEq, Repr

structure MqttRouter where
  nodeId : UUID
  clientId : Str
  topic : Str
  qos : ℤ
deriving DecidableEq, Repr

/-- The key of a trie node: the joined words above it (`none` at the root) and its own word. -/
structure MqttTrieKey where
  parent : Option Str
  word : Str
deriving DecidableEq, Repr

structure MqttTrie where
  parent : Option Str
  word : Str
  self : Str
  count : ℕ
deriving DecidableEq, Repr

structure MqttRoute where
  nodeId : Option UUID
  clientId : Str
  qos : ℤ
deriving DecidableEq, Repr

def MqttRouter.key (router : MqttRouter) : MqttRouterKey := ⟨router.clientId, router.topic⟩

def MqttTrie.key (node : MqttTrie) : MqttTrieKey := ⟨node.parent, node.word⟩

namespace TopicUtil

/-- `(parent == null ? "" : parent + "/") + word`. -/
def selfOf (parent : Option Str) (word : Str) : Str :=
  match parent with
  | none => word
  | some p => p ++ SLASH :: word

/-- The loop of `topic2Trie` over the remaining words; `parent` is the content of the string
builder, `none` before the first word. -/
def topic2TrieFrom (parent : Option Str) : List Str → List MqttTrie
  | [] => []
  | word :: words =>
      { parent := parent, word := word, self := selfOf parent word, count := 1 } ::
        topic2TrieFrom (some (selfOf parent word)) words

def topic2Trie (topic : Str) : List MqttTrie :=
  if !validateTopic topic then [] else topic2TrieFrom none (words topic)

end TopicUtil

namespace QosCalcFunction

def downgrade (messageQos topicQos : ℤ) : ℤ :=
  if messageQos < topicQos then messageQos else topicQos

def upgrade (messageQos topicQos : ℤ) : ℤ :=
  if messageQos > topicQos then messageQos else topicQos

end QosCalcFunction

/-- The two Ignite caches of `RouterCacheImpl`. -/
structure RouterCache where
  routerCache : PlainMap MqttRouterKey MqttRouter
  trieCache : PlainMap MqttTrieKey MqttTrie

namespace RouterCache

def empty : RouterCache := ⟨∅, ∅⟩

/-- One round of the loop in `save`: a new node, or one more reference to an existing one. -/
def addNode (trieCache : PlainMap MqttTrieKey MqttTrie) (node : MqttTrie) :
    PlainMap MqttTrieKey MqttTrie :=
  match trieCache.get node.key with
  | none => trieCache.put node.key node
  | some trieNode => trieCache.put node.key { trieNode with count := trieNode.count + 1 }

/-- One round of the loop in `delete`: one reference less, the last one takes the node along. -/
def removeNode (trieCache : PlainMap MqttTrieKey MqttTrie) (node : MqttTrie) :
    PlainMap MqttTrieKey MqttTrie :=
  match trieCache.get node.key with
  | none => trieCache
  | some trieNode =>
      if trieNode.count > 1 then
        trieCache.put node.key { trieNode with count := trieNode.count - 1 }
      else trieCache.remove node.key

/-- The trie nodes of a topic, if it is a wildcard topic. -/
def nodes (topic : Str) : List MqttTrie := if isWildcard topic then topic2Trie topic else []

def save (s : RouterCache) (router : MqttRouter) : RouterCache :=
  if !IdUtil.validateClientId router.clientId || !validateTopic router.topic then s
  else
    match s.routerCache.get router.key with
    | some oldRouter =>
        -- an update of an existing router does not touch the trie
        let router' := { oldRouter with nodeId := router.nodeId, qos := router.qos }
        { s with routerCache := s.routerCache.put router.key router' }
    | none =>
        { routerCache := s.routerCache.put router.key router
          trieCache := (nodes router.topic).foldl addNode s.trieCache }

def delete (s : RouterCache) (clientId topic : Str) : RouterCache :=
  if !IdUtil.validateClientId clientId || !validateTopic topic then s
  else if s.routerCache.containsKey ⟨clientId, topic⟩ then
    { routerCache := s.routerCache.remove ⟨clientId, topic⟩
      -- the nodes are visited from the last to the first
      trieCache := (nodes topic).reverse.foldl removeNode s.trieCache }
  else s

/-- `select topic from MqttRouter where clientId = ?`. -/
def topicsOf (s : RouterCache) (clientId : Str) : List Str :=
  (s.routerCache.values.filter fun router => router.clientId = clientId).map MqttRouter.topic

/-- `delete(clientId)`: every router of the client, one after the other. -/
def deleteClient (s : RouterCache) (clientId : Str) : RouterCache :=
  if !IdUtil.validateClientId clientId then s
  else (s.topicsOf clientId).foldl (fun s topic => s.delete clientId topic) s

/-- `update(clientId, nodeId)`: set the node of every router of the client. -/
def update (s : RouterCache) (clientId : Str) (nodeId : UUID) : RouterCache :=
  { s with routerCache := s.routerCache.mapValues fun router =>
      if router.clientId = clientId then { router with nodeId := nodeId } else router }

def get (s : RouterCache) (clientId topic : Str) : Option MqttRouter :=
  if !IdUtil.validateClientId clientId || !validateTopic topic then none
  else s.routerCache.get ⟨clientId, topic⟩

/-! ### The lookup -/

/-- The nodes below `parent` named `+`, `#` or `word`; the keys form a set. -/
def trie (s : RouterCache) (parent : Option Str) (word : Str) : List MqttTrie :=
  ([PLUS, POUND, word].map fun w => (⟨parent, w⟩ : MqttTrieKey)).dedup.filterMap s.trieCache.get

/-- `queryMatches(parent, { "#" })`, the query for a last `#` word: of the nodes it finds only
one named `#` is taken. -/
def queryPound (s : RouterCache) (parent : Option Str) : List Str :=
  (s.trie parent POUND).flatMap fun node => if node.word = POUND then [node.self] else []

/-- The strings that `queryMatches` adds to the set of matches. -/
def queryMatches (s : RouterCache) (parent : Option Str) : List Str → List Str
  | [] => []
  | word :: left => (s.trie parent word).flatMap fun node =>
      if word = POUND then (if node.word = POUND then [node.self] else [])
      else if node.word = POUND then [node.self]
      else match left with
        | [] => node.self :: s.queryPound (some node.self)
        | _ :: _ => s.queryMatches (some node.self) left

def getMatches (s : RouterCache) (topic : Str) : Option (Finset Str) :=
  if !validateTopic topic then none
  else some (topic :: s.queryMatches none (words topic)).toFinset

/-- The QoS that a route gets: `upgrade(?, qos)` or `downgrade(?, qos)` of the query. -/
def routeQos (upgradeQos : Bool) (qos routerQos : ℤ) : ℤ :=
  if upgradeQos then QosCalcFunction.upgrade qos routerQos
  else QosCalcFunction.downgrade qos routerQos

def route (upgradeQos : Bool) (qos : ℤ) (router : MqttRouter) : MqttRoute :=
  { nodeId := none, clientId := router.clientId, qos := routeQos upgradeQos qos router.qos }

def getRoutes (s : RouterCache) (upgradeQos : Bool) (topic : Str) (qos : ℤ) : List MqttRoute :=
  match s.getMatches topic with
  | none => []
  | some found =>
      if found = ∅ then []
      else (s.routerCache.values.filter fun router => router.topic ∈ found).map
        (route upgradeQos qos)

/-! ### Runs -/

/-- An operation on the router cache. -/
inductive Op where
  | save (router : MqttRouter)
  | delete (clientId topic : Str)
  | deleteClient (clientId : Str)
deriving DecidableEq, Repr

def step (s : RouterCache) : Op → RouterCache
  | .save router => s.save router
  | .delete clientId topic => s.delete clientId topic
  | .deleteClient clientId => s.deleteClient clientId

/-- The router cache after a sequence of operations on the empty one. -/
def run (ops : List Op) : RouterCache := ops.foldl step empty

/-- The filter that an operation names, if it names one, is accepted. -/
def Op.Accepted : Op → Prop
  | .save router => checkSubscribeTopic router.topic = true
  | .delete _ topic => checkSubscribeTopic topic = true
  | .deleteClient _ => True

instance : DecidablePred Op.Accepted
  | .save router => inferInstanceAs (Decidable (checkSubscribeTopic router.topic = true))
  | .delete _ topic => inferInstanceAs (Decidable (checkSubscribeTopic topic = true))
  | .deleteClient _ => inferInstanceAs (Decidable True)

end RouterCache

end Stuart
