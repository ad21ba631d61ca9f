/-
A cluster of brokers, and the one broker that it looks like.

The nodes share the caches, and each has its own endpoints and registered wrappers.  A client that
connects to another node than before is kicked there, and a message goes to the node in the
router, or into the stored queue when the request to that node fails.  Kick messages, requests and
replies are under way on the event bus, where they may be overtaken or lost.  Nodes come and go;
the transient sessions of a node that is gone are destroyed by the others.  A handler is one step.

A late kick, a lost reply and the like leave a cluster in states that no single broker has.  A run
is orderly (`Orderly`) if what is under way arrives, in its order and before anything else is done,
except that what is sent to a node that is gone fails.  Then, when nothing is under way, a client
has a wrapper on one node at most, and its record and its routers name that node (`Placed`).  So
everything that is stored and everything that any client is sent is what a single broker stores
and sends, on which each takeover from another node is the end of the old connection followed by
the new one, and the loss of a node is the end of all its connections (`refines_one_node`).
-/
import Stuart.Lib.Simulation
import Stuart.Services.Kick
import Stuart.Verticles.Restart
import Stuart.Verticles.RouterAccess
import Mathlib.Data.Finset.Erase
import Mathlib.Data.Finset.Insert

namespace Stuart

open List Lib TopicUtil

namespace Clustered

/-- What the nodes send to each other over the event bus. -/
inductive BusMessage where
  /-- to the node of the old session -/
  | kick (prevNodeId : UUID) (clientId : Str)
  /-- the message of a route, to the node of the route -/
  | request (thisNodeId nodeId : UUID) (message : MqttMessage) (route : MqttRoute)
  | reply (thisNodeId : UUID) (message : MqttMessage) (route : MqttRoute)
  /-- a request that has failed already -/
  | late (nodeId : UUID) (message : MqttMessage) (route : MqttRoute)

/-- The node that a message goes to. -/
def BusMessage.nodeId : BusMessage → UUID
  | .kick prevNodeId _ => prevNodeId
  | .request _ nodeId _ _ => nodeId
  | .reply thisNodeId _ _ => thisNodeId
  | .late nodeId _ _ => nodeId

structure State where
  isSessionUpgradeQos : Bool
  /-- what the nodes share -/
  cacheService : CacheService
  /-- of all connections, in the order of their CONNECTs -/
  endpoints : List MqttEndpoint
  /-- the node of each connection -/
  nodeIds : List UUID
  wrappers : UUID → PlainMap Str Wrapper
  /-- the nodes that are running -/
  running : Finset UUID
  /-- what is under way -/
  bus : List BusMessage

/-- What comes from a client other than a connection and the messages it publishes, and what the
retry timers of its session do. -/
inductive Request where
  | subscribeTopic (topic : Str) (qos : ℤ)
  | unsubscribeTopic (topic : Str)
  | receiveQos2 (awaitMessage : MqttAwaitMessage)
  | releaseQos2 (messageId : ℤ)
  | call (method : SessionMethod)

def Request.operation (clientId : Str) : Request → Broker.Operation
  | .subscribeTopic topic qos => .op (.subscribeTopic clientId topic qos)
  | .unsubscribeTopic topic => .op (.unsubscribeTopic clientId topic)
  | .receiveQos2 awaitMessage => .op (.receiveQos2 clientId awaitMessage)
  | .releaseQos2 messageId => .releaseQos2 clientId messageId
  | .call method => .call clientId method

inductive Action where
  | connect (nodeId : UUID) (clientId : Str) (cleanSession : Bool)
  /-- the connection ends -/
  | close (id : ℕ)
  | request (nodeId : UUID) (clientId : Str) (request : Request)
  /-- a node looks up the routes of a message -/
  | publish (nodeId : UUID) (topic : Str) (message : MqttMessage) (qos : MqttQoS)
  | join (nodeId : UUID)
  /-- the node leaves or fails -/
  | leave (nodeId : UUID)
  /-- what is at this place on the bus arrives -/
  | arrive (i : ℕ)
  /-- nothing gets the request, or the reply does not come in time -/
  | fail (i : ℕ)
  /-- what nobody waits for is lost -/
  | lose (i : ℕ)

namespace State

/-- A node, as the code on it sees the cluster. -/
def node (s : State) (nodeId : UUID) : Broker :=
  ⟨{ s.cacheService with thisNodeId := nodeId }, s.endpoints, s.wrappers nodeId⟩

/-- Something is done on a node. -/
def onNode (s : State) (nodeId : UUID) (f : Broker → Broker) : State :=
  let b := f (s.node nodeId)
  { s with
    cacheService := { b.cacheService with thisNodeId := s.cacheService.thisNodeId }
    endpoints := b.endpoints
    wrappers := Function.update s.wrappers nodeId b.wrappers }

/-- The end of a connection, on its node. -/
def close (s : State) (nodeId : UUID) (id : ℕ) : State :=
  s.onNode nodeId fun b => b.step (.close id)

/-- The consumer of the kick messages; the connection of the wrapper is closed and so it ends. -/
def kick (s : State) (nodeId : UUID) (clientId : Str) : State :=
  match (s.node nodeId).getWrapper clientId with
  | none => s
  | some wrapper => s.close nodeId wrapper.endpoint

/-- The node of the old session, if it is another one. -/
def prevNode (s : State) (nodeId : UUID) (clientId : Str) : Option UUID :=
  ((s.cacheService.getSession clientId).map MqttSession.nodeId).filter fun prevNodeId =>
    decide (prevNodeId ≠ nodeId)

def withBus (s : State) (bus : List BusMessage) : State := { s with bus }

/-- `handleAccept` on a node, without the kick message. -/
def opened (s : State) (nodeId : UUID) (clientId : Str) (cleanSession : Bool) : State :=
  { s.onNode nodeId fun b => (b.handleAccept clientId cleanSession).2 with
    nodeIds := s.nodeIds ++ [nodeId] }

/-- `handleAccept` on a node, with the kick message that `openSession` sends. -/
def connect (s : State) (nodeId : UUID) (clientId : Str) (cleanSession : Bool) : State :=
  (s.opened nodeId clientId cleanSession).withBus
    (s.bus ++ (s.prevNode nodeId clientId).toList.map fun prevNodeId => .kick prevNodeId clientId)

def handleLocalPublishMessage (s : State) (nodeId : UUID) (message : MqttMessage)
    (route : MqttRoute) : State :=
  s.onNode nodeId fun b =>
    b.handleLocalPublishMessage route.clientId message (MqttQoS.valueOf route.qos)

/-- `handleClusteredPublishMessage`, of one route. -/
def handleClusteredPublishMessage (s : State) (thisNodeId : UUID) (message : MqttMessage)
    (route : MqttRoute) : State :=
  match route.nodeId with
  | none => s
  | some nodeId =>
      if thisNodeId = nodeId then s.handleLocalPublishMessage nodeId message route
      else s.withBus (s.bus ++ [.request thisNodeId nodeId message route])

/-- The request of a node has failed, and the node is still there. -/
def failed (s : State) (thisNodeId : UUID) (message : MqttMessage) (route : MqttRoute) : State :=
  if thisNodeId ∈ s.running ∧ s.cacheService.isPersistentSession route.clientId = true then
    s.onNode thisNodeId fun b => b.withCache
      (b.cacheService.enqueue message route.clientId (MqttQoS.valueOf route.qos)).2
  else s

/-- What is at a place on the bus gets to its node. -/
def arrive (s : State) (i : ℕ) : BusMessage → State
  | .kick prevNodeId clientId => (s.withBus (s.bus.eraseIdx i)).kick prevNodeId clientId
  | .request thisNodeId nodeId message route =>
      -- the consumer replies at once
      (s.withBus (s.bus.set i (.reply thisNodeId message route))).handleLocalPublishMessage nodeId
        message route
  | .reply .. => s.withBus (s.bus.eraseIdx i)
  | .late nodeId message route =>
      (s.withBus (s.bus.eraseIdx i)).handleLocalPublishMessage nodeId message route

/-- The request at a place on the bus fails, or the one with this reply. -/
def fail (s : State) (i : ℕ) : BusMessage → Option State
  | .request thisNodeId nodeId message route =>
      some ((s.withBus (s.bus.set i (.late nodeId message route))).failed thisNodeId message route)
  | .reply thisNodeId message route =>
      some ((s.withBus (s.bus.eraseIdx i)).failed thisNodeId message route)
  | _ => none

def lose (s : State) (i : ℕ) : BusMessage → Option State
  | .kick .. | .late .. => some (s.withBus (s.bus.eraseIdx i))
  | _ => none

def publish (s : State) (nodeId : UUID) (topic : Str) (message : MqttMessage) (qos : MqttQoS) :
    State :=
  (s.cacheService.routerCache.getClusteredRoutes s.isSessionUpgradeQos topic qos.value).foldl
    (fun s route => s.handleClusteredPublishMessage nodeId message route) s

/-- `sessionCache.get(nodeId, true)`. -/
def transientSessions (s : CacheService) (nodeId : UUID) : List MqttSession :=
  s.sessionCache.values.filter fun session =>
    decide (session.nodeId = nodeId) && session.cleanSession

/-- `DestroySessionClosure.apply`.  No session is saved in between, so a record of the same node
has the same creation time. -/
def destroySession (s : CacheService) (session : MqttSession) : CacheService :=
  let destroy := (if session.cleanSession then s.destroyTransientSession session.clientId
    else s.destroyPersistentSession session.clientId).deleteSession session.clientId
  match s.getSession session.clientId with
  | none => destroy
  | some current => if current.nodeId = session.nodeId then destroy else s

/-- `destroyTransientSessions`. -/
def destroyTransientSessions (s : CacheService) (nodeId : UUID) : CacheService :=
  (transientSessions s nodeId).foldl destroySession s

/-- A node is gone with its connections and wrappers, and another one cleans up. -/
def leave (s : State) (nodeId : UUID) : State :=
  { s with
    cacheService := destroyTransientSessions s.cacheService nodeId
    endpoints := s.endpoints.mapIdx fun id endpoint =>
      if s.nodeIds[id]? = some nodeId then endpoint.close else endpoint
    wrappers := Function.update s.wrappers nodeId ∅
    running := s.running.erase nodeId }

end State

def step (s : State) : Action → Option State
  | .connect nodeId clientId cleanSession =>
      -- `handleEndpoint` rejects an empty client id
      if nodeId ∈ s.running ∧ IdUtil.validateClientId clientId = true then
        some (s.connect nodeId clientId cleanSession)
      else none
  | .close id =>
      match s.nodeIds[id]? with
      | none => none
      | some nodeId => if nodeId ∈ s.running then some (s.close nodeId id) else none
  | .request nodeId clientId request =>
      if nodeId ∈ s.running then
        some (s.onNode nodeId fun b => b.perform (request.operation clientId))
      else none
  | .publish nodeId topic message qos =>
      if nodeId ∈ s.running then some (s.publish nodeId topic message qos) else none
  | .join nodeId =>
      if nodeId ∈ s.running then none
      else some { s with running := insert nodeId s.running }
  | .leave nodeId =>
      -- somebody is left to clean up
      if nodeId ∈ s.running ∧ (s.running.erase nodeId).Nonempty then some (s.leave nodeId)
      else none
  | .arrive i => s.bus[i]?.bind fun message =>
      if message.nodeId ∈ s.running then some (s.arrive i message) else none
  | .fail i => s.bus[i]?.bind (s.fail i)
  | .lose i => s.bus[i]?.bind (s.lose i)

/-- What is under way is dealt with first, in the order in which it was sent, and it fails or is lost
only when its node is gone. -/
def Orderly (s : State) : Action → Prop
  | .arrive i => i = 0
  | .fail i | .lose i => i = 0 ∧ ∀ message ∈ s.bus.head?, message.nodeId ∉ s.running
  | _ => s.bus = []

instance decidableOrderly (s : State) : ∀ action, Decidable (Orderly s action)
  | .arrive i => inferInstanceAs (Decidable (i = 0))
  | .fail i | .lose i =>
      inferInstanceAs (Decidable (i = 0 ∧ ∀ message ∈ s.bus.head?, message.nodeId ∉ s.running))
  | .connect .. | .close _ | .request .. | .publish .. | .join _ | .leave _ =>
      inferInstanceAs (Decidable (s.bus = []))

/-- Nothing is done but what the bus asks for. -/
def Action.OfBus : Action → Prop
  | .arrive _ | .fail _ | .lose _ => True
  | _ => False

/-! ### One broker -/

namespace State

/-- What is on the bus is dealt with. -/
def settle (s : State) : BusMessage → State
  | .kick prevNodeId clientId => if prevNodeId ∈ s.running then s.kick prevNodeId clientId else s
  | .request thisNodeId nodeId message route =>
      if nodeId ∈ s.running then s.handleLocalPublishMessage nodeId message route
      else s.failed thisNodeId message route
  | .reply .. => s
  | .late nodeId message route =>
      if nodeId ∈ s.running then s.handleLocalPublishMessage nodeId message route else s

/-- Nothing is under way any more. -/
def settled (s : State) : State := s.bus.foldl settle (s.withBus [])

/-- The session of a route is on the node itself. -/
def isLocal (nodeId : UUID) (route : MqttRoute) : Bool := decide (route.nodeId = some nodeId)

/-- The routes of a message, those on the node itself first. -/
def routes (s : State) (nodeId : UUID) (topic : Str) (qos : MqttQoS) : List MqttRoute :=
  let routes := s.cacheService.routerCache.getClusteredRoutes s.isSessionUpgradeQos topic qos.value
  (routes.filter (isLocal nodeId)) ++
    routes.filter fun route => !isLocal nodeId route

/-- The connections of a node. -/
def connections (s : State) (nodeId : UUID) : List ℕ :=
  (List.range s.endpoints.length).filter fun id => decide (s.nodeIds[id]? = some nodeId)

/-- The connection of the wrapper that a node has for a client. -/
def connection (s : State) (nodeId : UUID) (clientId : Str) : Option ℕ :=
  ((s.node nodeId).getWrapper clientId).map Wrapper.endpoint

/-- The connections of a node that is gone, those of its transient sessions first. -/
def lost (s : State) (nodeId : UUID) : List ℕ :=
  (transientSessions s.cacheService nodeId).filterMap
    (fun session => s.connection nodeId session.clientId) ++ s.connections nodeId

/-- What an action is on one broker. -/
def operations (s : State) : Action → List Broker.Operation
  | .connect nodeId clientId cleanSession =>
      ((s.prevNode nodeId clientId).bind fun prevNodeId =>
          s.connection prevNodeId clientId).toList.map (fun id => .op (.close id)) ++
        [.op (.connect clientId cleanSession)]
  | .close id => [.op (.close id)]
  | .request nodeId clientId request =>
      -- nothing happens on a node where the client has no wrapper
      if (s.connection nodeId clientId).isSome then [request.operation clientId] else []
  | .publish nodeId topic message qos => (s.routes nodeId topic qos).map fun route =>
      .op (.publish route.clientId message (MqttQoS.valueOf route.qos))
  | .leave nodeId => (s.lost nodeId).map fun id => .op (.close id)
  | .join _ | .arrive _ | .fail _ | .lose _ => []

/-- The broker that the cluster looks like: the same packets on the same connections, the same
wrappers, and the same in the caches but for the nodes. -/
structure Shows (nodeId : UUID) (s : State) (b : Broker) : Prop where
  cacheService : b.cacheService = s.cacheService.gather nodeId
  endpoints : b.endpoints = s.endpoints
  wrappers : ∀ clientId w, b.wrappers.get clientId = some w ↔
    ∃ nodeId, (s.wrappers nodeId).get clientId = some w

/-- What holds of a client with a wrapper on a node. -/
structure Holds (s : State) (nodeId : UUID) (clientId : Str) (w : Wrapper) : Prop where
  running : nodeId ∈ s.running
  connection : s.nodeIds[w.endpoint]? = some nodeId
  session : ∃ session, (s.cacheService.data clientId).session = some session ∧
    session.nodeId = nodeId
  routers : ∀ topic router, (s.cacheService.data clientId).routers topic = some router →
    router.nodeId = nodeId

/-- What holds of one client. -/
structure Own (s : State) (clientId : Str) : Prop where
  keyed : ∀ session, (s.cacheService.data clientId).session = some session →
    session.clientId = clientId ∧ IdUtil.validateClientId clientId = true
  transient : ∀ session, (s.cacheService.data clientId).session = some session →
    session.cleanSession = true → (s.wrappers session.nodeId).get clientId ≠ none
  holds : ∀ nodeId w, (s.wrappers nodeId).get clientId = some w → s.Holds nodeId clientId w

/-- Everything that belongs to a client names the node of its wrapper. -/
structure Placed (s : State) : Prop where
  routers : s.cacheService.routerCache.Consistent
  length : s.nodeIds.length = s.endpoints.length
  own : ∀ clientId, s.Own clientId

/-- The cluster, and the broker that it looks like. -/
structure Sound (nodeId : UUID) (s : State) (b : Broker) : Prop where
  placed : s.Placed
  shows : s.Shows nodeId b
  inv : b.Inv

/-! ### The wrapper of a client -/

variable {m nodeId nodeId' : UUID} {s s' : State} {b b' : Broker} {clientId c : Str} {w : Wrapper}

/-- Only one node has a wrapper of a client. -/
lemma Placed.unique (h : s.Placed) (hget : (s.wrappers nodeId).get c = some w) {w' : Wrapper}
    (hget' : (s.wrappers nodeId').get c = some w') : nodeId = nodeId' := by
  obtain ⟨session, hsession, rfl⟩ := ((h.own c).holds _ _ hget).session
  obtain ⟨session', hsession', rfl⟩ := ((h.own c).holds _ _ hget').session
  rw [Option.some.inj (hsession.symm.trans hsession')]

/-- The client has no wrapper on another node. -/
def Alone (s : State) (nodeId : UUID) (c : Str) : Prop :=
  ∀ nodeId', nodeId' ≠ nodeId → (s.wrappers nodeId').get c = none

lemma Placed.alone (h : s.Placed) (hget : (s.wrappers nodeId).get c = some w) :
    s.Alone nodeId c := by
  intro nodeId' hne
  by_contra hsome
  obtain ⟨w', hget'⟩ := Option.ne_none_iff_exists'.1 hsome
  exact hne (h.unique hget' hget)

lemma Shows.get_eq (h : s.Shows m b) (halone : s.Alone nodeId c) :
    b.wrappers.get c = (s.wrappers nodeId).get c := by
  refine Option.ext fun w => (h.wrappers c w).trans ⟨?_, fun hget => ⟨nodeId, hget⟩⟩
  rintro ⟨nodeId', hget⟩
  by_cases hne : nodeId' = nodeId
  · rwa [hne] at hget
  · rw [halone nodeId' hne] at hget
    cases hget

lemma Shows.twin (h : s.Shows m b) (halone : s.Alone nodeId c) :
    Broker.Twin m c (s.node nodeId) b :=
  ⟨h.cacheService, h.endpoints, h.get_eq halone⟩

/-- A node is a sound broker. -/
lemma Sound.node_inv (h : s.Sound m b) (nodeId : UUID) : (s.node nodeId).Inv := by
  refine ⟨h.placed.routers, fun c => (h.inv.own c).of_gather h.shows.cacheService
    h.shows.endpoints fun w hget => ⟨(h.shows.wrappers c w).2 ⟨nodeId, hget⟩, ?_⟩⟩
  exact ((h.placed.own c).holds nodeId w hget).session

/-! ### Something is done on a node -/

lemma onNode_congr {f g : Broker → Broker} (h : f (s.node nodeId) = g (s.node nodeId)) :
    s.onNode nodeId f = s.onNode nodeId g := by
  simp only [State.onNode]
  rw [h]

lemma onNode_eq_self {f : Broker → Broker} (h : f (s.node nodeId) = s.node nodeId) :
    s.onNode nodeId f = s := by
  simp only [State.onNode]
  rw [h]
  simp only [node, Function.update_eq_self]

/-- Only the wrapper of one client has changed, and it is on one node. -/
lemma Shows.of_twin (h : s.Shows m b) {v : Broker} (htwin : Broker.Twin m c v b')
    (hcache : s'.cacheService.gather m = v.cacheService.gather m)
    (hends : s'.endpoints = v.endpoints)
    (hget : (s'.wrappers nodeId).get c = v.wrappers.get c) (halone : s'.Alone nodeId c)
    (hwrappers : ∀ nodeId' c', c' ≠ c →
      (s'.wrappers nodeId').get c' = (s.wrappers nodeId').get c')
    (hb : ∀ c', c' ≠ c → b'.wrappers.get c' = b.wrappers.get c') : s'.Shows m b' := by
  refine ⟨htwin.cacheService.trans hcache.symm, htwin.endpoints.trans hends.symm, fun c' w => ?_⟩
  by_cases heq : c' = c
  · rw [heq, htwin.wrapper, ← hget]
    refine ⟨fun hsome => ⟨nodeId, hsome⟩, ?_⟩
    rintro ⟨nodeId', hsome⟩
    by_cases hne : nodeId' = nodeId
    · rwa [hne] at hsome
    · rw [halone nodeId' hne] at hsome
      cases hsome
  · rw [hb c' heq, h.wrappers c' w]
    exact exists_congr fun nodeId' => by rw [hwrappers nodeId' c' heq]

lemma get_onNode_self (f : Broker → Broker) (c : Str) :
    ((s.onNode nodeId f).wrappers nodeId).get c = (f (s.node nodeId)).wrappers.get c := by
  simp only [State.onNode, Function.update_self]

lemma get_onNode_of_ne (f : Broker → Broker) (hne : nodeId' ≠ nodeId) (c : Str) :
    ((s.onNode nodeId f).wrappers nodeId').get c = (s.wrappers nodeId').get c := by
  simp only [State.onNode, Function.update_of_ne hne]

lemma Alone.onNode (h : s.Alone nodeId c) (f : Broker → Broker) :
    (s.onNode nodeId f).Alone nodeId c := fun nodeId' hne =>
  (get_onNode_of_ne f hne c).trans (h nodeId' hne)

lemma get_onNode {f : Broker → Broker}
    (hnode : (f (s.node nodeId)).wrappers.get c = (s.wrappers nodeId).get c) (nodeId' : UUID) :
    ((s.onNode nodeId f).wrappers nodeId').get c = (s.wrappers nodeId').get c := by
  by_cases hne : nodeId' = nodeId
  · rw [hne, get_onNode_self, hnode]
  · exact get_onNode_of_ne f hne c

/-- An operation on a client that has no wrapper on another node. -/
lemma Shows.onNode (h : s.Shows m b) (halone : s.Alone nodeId c) {f : Broker → Broker}
    (htwin : Broker.Twin m c (f (s.node nodeId)) b')
    (hnode : ∀ c', c' ≠ c → (f (s.node nodeId)).wrappers.get c' = (s.wrappers nodeId).get c')
    (hb : ∀ c', c' ≠ c → b'.wrappers.get c' = b.wrappers.get c') :
    (s.onNode nodeId f).Shows m b' :=
  h.of_twin htwin rfl rfl (get_onNode_self f c) (halone.onNode f)
    (fun nodeId' c' hne => get_onNode (hnode c' hne) nodeId') hb

/-- The places stay when the operation leaves the records and changes no wrapper but for what is
in it, and what it saves are routers of a client of this node. -/
lemma Placed.onNode (h : s.Placed) {f : Broker → Broker} (hinv : (f (s.node nodeId)).Inv)
    (hlength : (f (s.node nodeId)).endpoints.length = s.endpoints.length)
    (hsession : ∀ c, ((f (s.node nodeId)).cacheService.data c).session =
      (s.cacheService.data c).session)
    (hrouters : ∀ c topic router,
      ((f (s.node nodeId)).cacheService.data c).routers topic = some router →
        (s.cacheService.data c).routers topic = some router ∨
          router.nodeId = nodeId ∧ s.Alone nodeId c)
    (hsome : ∀ c w, (s.wrappers nodeId).get c = some w →
      ∃ w', (f (s.node nodeId)).wrappers.get c = some w' ∧ w'.endpoint = w.endpoint)
    (hnone : ∀ c, (s.wrappers nodeId).get c = none → (f (s.node nodeId)).wrappers.get c = none) :
    (s.onNode nodeId f).Placed := by
  have hget (nodeId' : UUID) (c : Str) (w' : Wrapper)
      (hget' : ((s.onNode nodeId f).wrappers nodeId').get c = some w') :
      ∃ w, (s.wrappers nodeId').get c = some w ∧ w'.endpoint = w.endpoint := by
    simp only [State.onNode, Function.update_apply] at hget'
    split_ifs at hget' with heq
    · subst heq
      cases hold : (s.wrappers nodeId').get c with
      | none =>
          rw [hnone c hold] at hget'
          cases hget'
      | some w =>
          obtain ⟨w'', hnew, hend⟩ := hsome c w hold
          obtain rfl := Option.some.inj (hnew.symm.trans hget')
          exact ⟨w, rfl, hend⟩
    · exact ⟨w', hget', rfl⟩
  refine ⟨hinv.routers, h.length.trans hlength.symm, fun c => ⟨fun session hs =>
    (h.own c).keyed session ((hsession c).symm.trans hs), fun session hs hclean => ?_,
    fun nodeId' w' hget' => ?_⟩⟩
  · obtain ⟨w, hw⟩ := Option.ne_none_iff_exists'.1
      ((h.own c).transient session ((hsession c).symm.trans hs) hclean)
    simp only [State.onNode, Function.update_apply]
    split_ifs with heq
    · rw [heq] at hw
      obtain ⟨w', hw', -⟩ := hsome c w hw
      rw [hw']
      simp
    · rw [hw]
      simp
  · obtain ⟨w, hw, hend⟩ := hget nodeId' c w' hget'
    obtain ⟨hrunning, hconnection, ⟨session, hs, hnode⟩, hnodes⟩ := (h.own c).holds nodeId' w hw
    refine ⟨hrunning, ?_, ⟨session, (hsession c).trans hs, hnode⟩, fun topic router hr => ?_⟩
    · rw [hend]
      exact hconnection
    · rcases hrouters c topic router hr with hold | ⟨hnew, halone⟩
      · exact hnodes topic router hold
      · by_contra hne
        rw [halone nodeId' fun heq => hne (hnew.trans heq.symm)] at hw
        cases hw

lemma getWrapper_of_none (hnone : (s.wrappers nodeId).get c = none) :
    (s.node nodeId).getWrapper c = none := by
  simp only [Broker.getWrapper]
  rw [show (s.node nodeId).wrappers.get c = none from hnone, ite_self]

/-! ### A request -/

lemma client_operation (request : Request) : (request.operation c).client = some c := by
  cases request <;> rfl

lemma not_connects_operation (request : Request) : ¬(request.operation c).Connects clientId := by
  rintro ⟨-, cleanSession, heq⟩
  cases request <;> cases heq

/-- On a node without a wrapper of the client nothing happens. -/
lemma perform_of_none (hnone : b.getWrapper c = none) (request : Request) :
    b.perform (request.operation c) = b :=
  Broker.perform_of_none hnone (client_operation request)
    (fun _ heq => by cases request <;> cases heq) fun _ _ heq => by cases request <;> cases heq

/-- A request saves routers of its client on its node, and no others. -/
lemma routers_request (h : b.Inv) (request : Request) {topic : Str} {router : MqttRouter}
    (hr : ((b.perform (request.operation clientId)).cacheService.data c).routers topic =
      some router) :
    (b.cacheService.data c).routers topic = some router ∨
      router.nodeId = b.cacheService.thisNodeId ∧ c = clientId := by
  have hsame {b' : Broker} (hw : Broker.Writes b b' [])
      (hr : (b'.cacheService.data c).routers topic = some router) :
      (b.cacheService.data c).routers topic = some router :=
    (hw.get h.routers ⟨c, topic⟩).symm.trans hr
  cases request with
  | subscribeTopic topic' qos =>
      change ((b.subscribeTopic clientId topic' qos).cacheService.data c).routers topic = _ at hr
      simp only [Broker.subscribeTopic] at hr
      cases hget : b.getWrapper clientId with
      | none =>
          rw [hget] at hr
          exact Or.inl hr
      | some w =>
          rw [hget] at hr
          dsimp only [Broker.withCache] at hr
          rw [(h.live_of_getWrapper hget).client, CacheService.data_saveRouter h.routers] at hr
          split_ifs at hr with heq
          · dsimp only at hr
            split_ifs at hr
            · obtain rfl := Option.some.inj hr
              exact Or.inr ⟨rfl, heq.1⟩
            · exact Or.inl hr
          · exact Or.inl hr
  | unsubscribeTopic topic' =>
      change ((b.unsubscribeTopic clientId topic').cacheService.data c).routers topic = _ at hr
      simp only [Broker.unsubscribeTopic] at hr
      cases hget : b.getWrapper clientId with
      | none =>
          rw [hget] at hr
          exact Or.inl hr
      | some w =>
          rw [hget] at hr
          dsimp only [Broker.withCache] at hr
          rw [CacheService.data_deleteRouter h.routers] at hr
          split_ifs at hr
          · dsimp only at hr
            split_ifs at hr
            exact Or.inl hr
          · exact Or.inl hr
  | receiveQos2 awaitMessage => exact Or.inl (hsame (Broker.writes_receiveQos2Message _ _ _) hr)
  | releaseQos2 messageId => exact Or.inl (hsame (Broker.writes_releaseQos2Message _ _ _) hr)
  | call method => exact Or.inl (hsame (Broker.writes_onRegistered _ _ _) hr)

lemma length_eq_of_owner (h : ∀ id, b'.owner id = b.owner id) :
    b'.endpoints.length = b.endpoints.length := by
  have hle {u u' : Broker} (h : ∀ id, u'.owner id = u.owner id) :
      u.endpoints.length ≤ u'.endpoints.length := by
    by_contra hlt
    have howner := h u'.endpoints.length
    rw [Broker.owner_of_le le_rfl] at howner
    simp only [Broker.owner, Broker.endpoint] at howner
    rw [getElem?_eq_getElem (Nat.lt_of_not_le hlt)] at howner
    cases howner
  exact Nat.le_antisymm (hle fun id => (h id).symm) (hle h)

/-- An operation on a client, on a node that is the only one to have a wrapper of it. -/
lemma Sound.perform (h : s.Sound m b) {operation : Broker.Operation}
    (hclient : operation.client = some clientId) (hnot : ¬operation.Connects clientId)
    (halone : s.Alone nodeId clientId)
    (hrouters : ∀ c topic router,
      (((s.node nodeId).perform operation).cacheService.data c).routers topic = some router →
        (s.cacheService.data c).routers topic = some router ∨
          router.nodeId = nodeId ∧ c = clientId) :
    (s.onNode nodeId fun b => b.perform operation).Sound m (b.perform operation) := by
  have hinv := h.node_inv nodeId
  have hsame := hinv.sameElse_perform hclient hnot
  have hstays := hinv.stays_perform hclient hnot
  have hend := hinv.endpoint_perform hclient hnot
  refine ⟨h.placed.onNode (hinv.perform operation) (length_eq_of_owner hsame.owner) (fun c => (hstays c).session)
    (fun c topic router hr => ?_) (fun c w hw => ?_) (fun c hw => ?_),
    h.shows.onNode halone ((h.shows.twin halone).perform hclient hnot) hsame.wrappers
      (h.inv.sameElse_perform hclient hnot).wrappers, h.inv.perform _⟩
  · rcases hrouters c topic router hr with hold | ⟨hnode, rfl⟩
    · exact Or.inl hold
    · exact Or.inr ⟨hnode, halone⟩
  · exact Option.map_eq_some_iff.1 ((hend c).trans (congrArg (Option.map Wrapper.endpoint) hw))
  · exact (hstays c).wrapper.2 hw

lemma Sound.request (h : s.Sound m b) (nodeId : UUID) (clientId : Str) (request : Request) :
    (s.onNode nodeId fun b => b.perform (request.operation clientId)).Sound m
      ((s.operations (.request nodeId clientId request)).foldl Broker.perform b) := by
  cases hget : (s.node nodeId).getWrapper clientId with
  | none =>
      have hoperations : s.operations (.request nodeId clientId request) = [] :=
        if_neg (by simp [connection, hget])
      rw [hoperations, onNode_eq_self (perform_of_none hget request)]
      exact h
  | some w =>
      have hoperations : s.operations (.request nodeId clientId request) =
          [request.operation clientId] := if_pos (by simp [connection, hget])
      rw [Broker.getWrapper_eq (Broker.valid_of_getWrapper hget)] at hget
      rw [hoperations]
      exact h.perform (client_operation request) (not_connects_operation request)
        (h.placed.alone hget)
        fun c topic router => routers_request (h.node_inv nodeId) request

/-! ### A message -/

/-- A message for one client, handled on a node that is the only one to have a wrapper of it. -/
lemma Sound.handleLocalPublishMessage (h : s.Sound m b) (halone : s.Alone nodeId c)
    (message : MqttMessage) (qos : MqttQoS) :
    (s.onNode nodeId fun b => b.handleLocalPublishMessage c message qos).Sound m
      (b.handleLocalPublishMessage c message qos) := by
  have hnot : ¬(Broker.Operation.op (.publish c message qos)).Connects c := by
    rintro ⟨-, cleanSession, heq⟩
    cases heq
  refine h.perform rfl hnot halone fun c' topic router hr => Or.inl ?_
  exact ((Broker.writes_handleLocalPublishMessage (s.node nodeId) c message qos).get
    h.placed.routers ⟨c', topic⟩).symm.trans hr

/-- A route comes from a stored router. -/
def Routed (s : State) (route : MqttRoute) : Prop :=
  ∃ filter router, (s.cacheService.data route.clientId).routers filter = some router ∧
    route.nodeId = some router.nodeId

/-- A message is handled on the node of its route, or by the node that it comes from. -/
def handed (s : State) (thisNodeId : UUID) (message : MqttMessage) (route : MqttRoute) : State :=
  match route.nodeId with
  | none => s
  | some nodeId =>
      if thisNodeId = nodeId ∨ nodeId ∈ s.running then
        s.handleLocalPublishMessage nodeId message route
      else s.failed thisNodeId message route

/-- A message is handled on the node of the wrapper, if there is a wrapper, and otherwise on some
node. -/
lemma Placed.handed_eq (h : s.Placed) {thisNodeId : UUID} (hthis : thisNodeId ∈ s.running)
    (message : MqttMessage) {route : MqttRoute} (hroute : s.Routed route) :
    ∃ nodeId, s.Alone nodeId route.clientId ∧
      s.handed thisNodeId message route = s.onNode nodeId fun b =>
        b.handleLocalPublishMessage route.clientId message (MqttQoS.valueOf route.qos) := by
  obtain ⟨filter, router, hrouter, hnode⟩ := hroute
  simp only [handed]
  rw [hnode]
  dsimp only
  by_cases hheld : ∃ nodeId w, (s.wrappers nodeId).get route.clientId = some w
  · obtain ⟨nodeId, w, hget⟩ := hheld
    have hholds := (h.own route.clientId).holds nodeId w hget
    obtain rfl := hholds.routers filter router hrouter
    refine ⟨router.nodeId, h.alone hget, ?_⟩
    rw [if_pos (Or.inr hholds.running)]
    rfl
  · have hnone (nodeId : UUID) : (s.wrappers nodeId).get route.clientId = none := by
      by_contra hsome
      exact hheld ⟨nodeId, Option.ne_none_iff_exists'.1 hsome⟩
    have hget (nodeId : UUID) := getWrapper_of_none (hnone nodeId)
    split_ifs
    · exact ⟨router.nodeId, fun nodeId _ => hnone nodeId, rfl⟩
    · refine ⟨thisNodeId, fun nodeId _ => hnone nodeId, ?_⟩
      simp only [failed]
      split_ifs with hpers
      · refine onNode_congr ?_
        rw [Broker.handleLocalPublishMessage_of_none (hget thisNodeId)]
        exact (if_pos hpers.2).symm
      · refine (onNode_eq_self ?_).symm
        rw [Broker.handleLocalPublishMessage_of_none (hget thisNodeId)]
        exact if_neg fun hpers' => hpers ⟨hthis, hpers'⟩

lemma Sound.handed (h : s.Sound m b) {thisNodeId : UUID} (hthis : thisNodeId ∈ s.running)
    (message : MqttMessage) {route : MqttRoute} (hroute : s.Routed route) :
    (s.handed thisNodeId message route).Sound m
        (b.handleLocalPublishMessage route.clientId message (MqttQoS.valueOf route.qos)) ∧
      thisNodeId ∈ (s.handed thisNodeId message route).running ∧
      ∀ route', s.Routed route' → (s.handed thisNodeId message route).Routed route' := by
  obtain ⟨nodeId, halone, heq⟩ := h.placed.handed_eq hthis message hroute
  rw [heq]
  refine ⟨h.handleLocalPublishMessage halone message _, hthis, fun route' hroute' => ?_⟩
  obtain ⟨filter, router, hrouter, hnode⟩ := hroute'
  refine ⟨filter, router, ?_, hnode⟩
  exact ((Broker.writes_handleLocalPublishMessage (s.node nodeId) _ message _).get
    h.placed.routers ⟨route'.clientId, filter⟩).trans hrouter

lemma Sound.foldl_handed (h : s.Sound m b) {thisNodeId : UUID} (hthis : thisNodeId ∈ s.running)
    (message : MqttMessage) {routes : List MqttRoute} (hroutes : ∀ route ∈ routes, s.Routed route) :
    (routes.foldl (fun s route => s.handed thisNodeId message route) s).Sound m
      (routes.foldl (fun b route => b.handleLocalPublishMessage route.clientId message
        (MqttQoS.valueOf route.qos)) b) := by
  induction routes generalizing s b with
  | nil => exact h
  | cons route routes ih =>
      obtain ⟨hroute, hroutes⟩ := forall_mem_cons.1 hroutes
      obtain ⟨hsound, hthis', hkeep⟩ := h.handed hthis message hroute
      exact ih hsound hthis' fun route' hmem => hkeep route' (hroutes route' hmem)

lemma Placed.routed (h : s.Placed) {topic : Str} {qos : MqttQoS} {route : MqttRoute}
    (hmem : route ∈ s.routes nodeId topic qos) : s.Routed route := by
  simp only [routes, mem_append, mem_filter] at hmem
  exact h.routers.exists_of_mem_getClusteredRoutes (hmem.elim And.left And.left)

/-- The one broker looks up the same routes for a message, but for their nodes and their order. -/
theorem Shows.perm_routes (h : s.Shows m b) (nodeId : UUID) (topic : Str) (qos : MqttQoS) :
    ((s.routes nodeId topic qos).map fun route => { route with nodeId := none }) ~
      b.cacheService.routerCache.getRoutes s.isSessionUpgradeQos topic qos.value := by
  rw [h.cacheService]
  refine Perm.trans ?_ (Perm.of_eq (RouterCache.getRoutes_gather s.isSessionUpgradeQos topic
    qos.value).symm)
  exact (filter_append_perm (isLocal nodeId) _).map _

/-! ### What is under way -/

@[simp] lemma bus_withBus (bus : List BusMessage) : (s.withBus bus).bus = bus := rfl

@[simp] lemma running_withBus (bus : List BusMessage) : (s.withBus bus).running = s.running := rfl

@[simp] lemma cacheService_withBus (bus : List BusMessage) :
    (s.withBus bus).cacheService = s.cacheService := rfl

lemma withBus_self {bus : List BusMessage} (h : s.bus = bus) : s.withBus bus = s := by
  subst h
  rfl

lemma handleLocalPublishMessage_withBus (bus : List BusMessage) (nodeId : UUID)
    (message : MqttMessage) (route : MqttRoute) :
    (s.withBus bus).handleLocalPublishMessage nodeId message route =
      (s.handleLocalPublishMessage nodeId message route).withBus bus := rfl

lemma failed_withBus (bus : List BusMessage) (thisNodeId : UUID) (message : MqttMessage)
    (route : MqttRoute) :
    (s.withBus bus).failed thisNodeId message route =
      (s.failed thisNodeId message route).withBus bus := by
  by_cases h : thisNodeId ∈ s.running ∧ s.cacheService.isPersistentSession route.clientId = true
  · have hfailed : s.failed thisNodeId message route = s.onNode thisNodeId _ := if_pos h
    rw [hfailed]
    exact if_pos h
  · have hfailed : s.failed thisNodeId message route = s := if_neg h
    rw [hfailed]
    exact if_neg h

lemma kick_withBus (bus : List BusMessage) (nodeId : UUID) (c : Str) :
    (s.withBus bus).kick nodeId c = (s.kick nodeId c).withBus bus := by
  simp only [kick]
  rw [show (s.withBus bus).node nodeId = s.node nodeId from rfl]
  cases (s.node nodeId).getWrapper c <;> rfl

/-- What is dealt with does not depend on what else is under way. -/
lemma settle_withBus (bus : List BusMessage) (message : BusMessage) :
    (s.withBus bus).settle message = (s.settle message).withBus bus := by
  cases message with
  | kick prevNodeId clientId =>
      simp only [settle, running_withBus, kick_withBus]
      exact (apply_ite (fun s : State => s.withBus bus) _ _ _).symm
  | request thisNodeId nodeId message route =>
      simp only [settle, running_withBus, failed_withBus, handleLocalPublishMessage_withBus]
      exact (apply_ite (fun s : State => s.withBus bus) _ _ _).symm
  | reply => rfl
  | late nodeId message route =>
      simp only [settle, running_withBus, handleLocalPublishMessage_withBus]
      exact (apply_ite (fun s : State => s.withBus bus) _ _ _).symm

lemma settled_of_idle (h : s.bus = []) : s.settled = s := by
  simp only [settled, h, foldl_nil, withBus_self]

lemma settled_withBus (bus : List BusMessage) :
    (s.withBus bus).settled = bus.foldl settle (s.withBus []) := rfl

lemma settled_withBus_cons (message : BusMessage) (bus : List BusMessage) :
    (s.withBus (message :: bus)).settled = ((s.settle message).withBus bus).settled := by
  rw [settled_withBus, foldl_cons, settle_withBus, settled_withBus]

lemma settled_cons {message : BusMessage} {bus : List BusMessage} (h : s.bus = message :: bus) :
    s.settled = ((s.settle message).withBus bus).settled := by
  rw [← settled_withBus_cons, withBus_self h]

lemma failed_of_not_mem {thisNodeId : UUID} (hnot : thisNodeId ∉ s.running)
    (message : MqttMessage) (route : MqttRoute) : s.failed thisNodeId message route = s :=
  if_neg fun h => hnot h.1

/-- What the bus asks for is done in the order in which it was sent. -/
lemma settled_of_arrive {message : BusMessage} {bus : List BusMessage}
    (h : s.bus = message :: bus) (hrunning : message.nodeId ∈ s.running) :
    (s.arrive 0 message).settled = s.settled := by
  rw [settled_cons h]
  cases message with
  | kick prevNodeId clientId =>
      simp only [arrive, h, eraseIdx_cons_zero, settle]
      rw [if_pos (show prevNodeId ∈ s.running from hrunning), kick_withBus]
  | request thisNodeId nodeId message route =>
      simp only [arrive, h, set_cons_zero, settle]
      rw [if_pos (show nodeId ∈ s.running from hrunning), handleLocalPublishMessage_withBus,
        settled_withBus_cons]
      rfl
  | reply =>
      simp only [arrive, h, eraseIdx_cons_zero, settle]
  | late nodeId message route =>
      simp only [arrive, h, eraseIdx_cons_zero, settle]
      rw [if_pos (show nodeId ∈ s.running from hrunning), handleLocalPublishMessage_withBus]

lemma settled_of_fail {message : BusMessage} {bus : List BusMessage} (h : s.bus = message :: bus)
    (hnot : message.nodeId ∉ s.running) (hfail : s.fail 0 message = some s') :
    s'.settled = s.settled := by
  rw [settled_cons h]
  cases message with
  | kick prevNodeId clientId => cases hfail
  | request thisNodeId nodeId message route =>
      obtain rfl := Option.some.inj hfail
      have hlate : (s.failed thisNodeId message route).settle (.late nodeId message route) =
          s.failed thisNodeId message route := by
        refine if_neg ?_
        simp only [State.failed]
        split_ifs <;> exact hnot
      rw [h, set_cons_zero, failed_withBus, settled_withBus_cons, hlate, settle,
        if_neg (show nodeId ∉ s.running from hnot)]
  | reply thisNodeId message route =>
      obtain rfl := Option.some.inj hfail
      rw [h, eraseIdx_cons_zero, failed_withBus,
        failed_of_not_mem (show thisNodeId ∉ s.running from hnot)]
      rfl
  | late nodeId message route => cases hfail

lemma settled_of_lose {message : BusMessage} {bus : List BusMessage} (h : s.bus = message :: bus)
    (hnot : message.nodeId ∉ s.running) (hlose : s.lose 0 message = some s') :
    s'.settled = s.settled := by
  have hsettle : s.settle message = s := by
    cases message with
    | kick prevNodeId clientId => exact if_neg hnot
    | request => cases hlose
    | reply => rfl
    | late nodeId message route => exact if_neg hnot
  have hs' : s' = s.withBus bus := by
    cases message with
    | kick prevNodeId clientId =>
        rw [← Option.some.inj hlose, h]
        rfl
    | request => cases hlose
    | reply => cases hlose
    | late nodeId message route =>
        rw [← Option.some.inj hlose, h]
        rfl
  rw [settled_cons h, hsettle, hs']

/-- What is done because of the bus does not change what it will have led to. -/
lemma settled_of_ofBus {action : Action} (hbus : action.OfBus) (horderly : Orderly s action)
    (hstep : Clustered.step s action = some s') : s'.settled = s.settled := by
  have hfirst (message : BusMessage) (hmessage : s.bus[0]? = some message) :
      ∃ bus, s.bus = message :: bus := head?_eq_some_iff.1 (head?_eq_getElem?.trans hmessage)
  cases action with
  | arrive i =>
      obtain rfl : i = 0 := horderly
      obtain ⟨message, hmessage, hstep⟩ := Option.bind_eq_some_iff.1 hstep
      rw [Option.ite_none_right_eq_some, Option.some_inj] at hstep
      obtain ⟨hrunning, rfl⟩ := hstep
      obtain ⟨bus, hcons⟩ := hfirst message hmessage
      exact settled_of_arrive hcons hrunning
  | fail i =>
      obtain ⟨rfl, hnot⟩ := horderly
      obtain ⟨message, hmessage, hstep⟩ := Option.bind_eq_some_iff.1 hstep
      obtain ⟨bus, hcons⟩ := hfirst message hmessage
      rw [hcons] at hnot
      exact settled_of_fail hcons (hnot message rfl) hstep
  | lose i =>
      obtain ⟨rfl, hnot⟩ := horderly
      obtain ⟨message, hmessage, hstep⟩ := Option.bind_eq_some_iff.1 hstep
      obtain ⟨bus, hcons⟩ := hfirst message hmessage
      rw [hcons] at hnot
      exact settled_of_lose hcons (hnot message rfl) hstep
  | connect | close | request | publish | join | leave => exact hbus.elim

/-- How often the bus has to deal with a message: a request is replied to, or it fails and is late. -/
def weight : BusMessage → ℕ
  | .request .. => 2
  | _ => 1

lemma bus_kick (nodeId : UUID) (c : Str) : (s.kick nodeId c).bus = s.bus := by
  simp only [kick]
  cases (s.node nodeId).getWrapper c <;> rfl

lemma bus_failed (thisNodeId : UUID) (message : MqttMessage) (route : MqttRoute) :
    (s.failed thisNodeId message route).bus = s.bus := by
  simp only [State.failed]
  split_ifs <;> rfl

/-- There is always something to do for the bus, and it gets less. -/
lemma exists_ofBus_step {message : BusMessage} {bus : List BusMessage}
    (h : s.bus = message :: bus) :
    ∃ action s', Action.OfBus action ∧ Orderly s action ∧
      Clustered.step s action = some s' ∧ (s'.bus.map weight).sum < (s.bus.map weight).sum := by
  by_cases hrunning : message.nodeId ∈ s.running
  · refine ⟨.arrive 0, s.arrive 0 message, trivial, rfl, ?_, ?_⟩
    · simp only [Clustered.step, h, getElem?_cons_zero, Option.bind_some, if_pos hrunning]
    · cases message with
      | kick prevNodeId clientId =>
          rw [arrive, bus_kick, bus_withBus, h, eraseIdx_cons_zero]
          simp [weight]
      | request thisNodeId nodeId message route =>
          show ((s.bus.set 0 _).map weight).sum < _
          rw [h, set_cons_zero]
          simp [weight]
      | reply | late =>
          show ((s.bus.eraseIdx 0).map weight).sum < _
          rw [h, eraseIdx_cons_zero]
          simp [weight]
  · have hgone : ∀ message ∈ s.bus.head?, message.nodeId ∉ s.running := by
      rw [h]
      rintro _ ⟨⟩
      exact hrunning
    cases message with
    | kick | late =>
        refine ⟨.lose 0, s.withBus bus, trivial, ⟨rfl, hgone⟩, ?_, ?_⟩
        · simp only [Clustered.step, h, getElem?_cons_zero, Option.bind_some, lose,
            eraseIdx_cons_zero]
        · rw [h, bus_withBus]
          simp [weight]
    | request thisNodeId nodeId message route =>
        refine ⟨.fail 0, (s.withBus (.late nodeId message route :: bus)).failed thisNodeId message
          route, trivial, ⟨rfl, hgone⟩, ?_, ?_⟩
        · simp only [Clustered.step, h, getElem?_cons_zero, Option.bind_some, fail,
            set_cons_zero]
        · rw [bus_failed, bus_withBus, h]
          simp [weight]
    | reply thisNodeId message route =>
        refine ⟨.fail 0, (s.withBus bus).failed thisNodeId message route, trivial,
          ⟨rfl, hgone⟩, ?_, ?_⟩
        · simp only [Clustered.step, h, getElem?_cons_zero, Option.bind_some, fail,
            eraseIdx_cons_zero]
        · rw [bus_failed, bus_withBus, h]
          simp [weight]

/-- The bus can always be dealt with. -/
lemma exists_run_settled (s : State) :
    ∃ actions, (∀ action ∈ actions, Action.OfBus action) ∧
      AllSteps Clustered.step Orderly s actions ∧
      run Clustered.step s actions = some s.settled := by
  induction hn : (s.bus.map weight).sum using Nat.strong_induction_on generalizing s with
  | _ n ih =>
      cases hbus : s.bus with
      | nil => exact ⟨[], by simp, trivial, congrArg some (settled_of_idle hbus).symm⟩
      | cons message bus =>
          obtain ⟨action, s', hof, horderly, hstep, hlt⟩ := exists_ofBus_step hbus
          obtain ⟨actions, hactions, hall, hrun⟩ := ih _ (hn ▸ hlt) s' rfl
          refine ⟨action :: actions, forall_mem_cons.2 ⟨hof, hactions⟩, ⟨horderly, ?_⟩, ?_⟩
          · rw [hstep]
            rintro _ ⟨⟩
            exact hall
          · rw [run_cons, hstep, Option.bind_some, hrun, settled_of_ofBus hof horderly hstep]

lemma foldl_handleLocalPublishMessage_withBus (bus : List BusMessage) (nodeId : UUID)
    (message : MqttMessage) (routes : List MqttRoute) :
    routes.foldl (fun s route => s.handleLocalPublishMessage nodeId message route) (s.withBus bus) =
      (routes.foldl (fun s route => s.handleLocalPublishMessage nodeId message route) s).withBus
        bus := by
  induction routes generalizing s with
  | nil => rfl
  | cons route routes ih =>
      rw [foldl_cons, handleLocalPublishMessage_withBus, ih]
      rfl

/-- The sessions of the node itself are handed the message at once, the others when the requests
arrive. -/
lemma foldl_handleClusteredPublishMessage (s : State) (nodeId : UUID) (message : MqttMessage)
    (routes : List MqttRoute) :
    routes.foldl (fun s route => s.handleClusteredPublishMessage nodeId message route) s =
      ((routes.filter (isLocal nodeId)).foldl
        (fun s route => s.handleLocalPublishMessage nodeId message route) s).withBus
          (s.bus ++ (routes.filter fun route => !isLocal nodeId route).filterMap
            fun route => route.nodeId.map fun nodeId' =>
              .request nodeId nodeId' message route) := by
  induction routes generalizing s with
  | nil =>
      simp only [foldl_nil, filter_nil, filterMap_nil, append_nil]
      rfl
  | cons route routes ih =>
      rw [foldl_cons, ih]
      simp only [State.handleClusteredPublishMessage]
      cases hnode : route.nodeId with
      | none => simp [isLocal, hnode]
      | some nodeId' =>
          dsimp only
          by_cases heq : nodeId = nodeId'
          · subst heq
            have hlocal : isLocal nodeId route = true := decide_eq_true hnode
            rw [if_pos rfl, filter_cons_of_pos hlocal, filter_cons_of_neg (by simp [hlocal]),
              foldl_cons]
            rfl
          · have hlocal : isLocal nodeId route = false := by
              simp [isLocal, hnode, Ne.symm heq]
            rw [if_neg heq, filter_cons_of_neg (by simp [hlocal]),
              filter_cons_of_pos (by simp [hlocal]), filterMap_cons, hnode, Option.map_some,
              bus_withBus, foldl_handleLocalPublishMessage_withBus, append_assoc]
            rfl

/-- A publish, when all that it sends has been dealt with. -/
lemma settled_publish (h : s.bus = []) (nodeId : UUID) (topic : Str) (message : MqttMessage)
    (qos : MqttQoS) :
    (s.publish nodeId topic message qos).settled =
      (s.routes nodeId topic qos).foldl (fun s route => s.handed nodeId message route) s := by
  simp only [State.publish, routes]
  rw [foldl_handleClusteredPublishMessage, h, nil_append, foldl_append,
    settled_withBus, foldl_filterMap]
  have hlocal (l : List MqttRoute) :
      ((l.filter (isLocal nodeId)).foldl
        (fun s route => s.handleLocalPublishMessage nodeId message route) s).withBus [] =
      (l.filter (isLocal nodeId)).foldl
        (fun s route => s.handed nodeId message route) s := by
    rw [← foldl_handleLocalPublishMessage_withBus, withBus_self h]
    refine foldl_ext _ _ _ fun s route hmem => ?_
    have hnode : route.nodeId = some nodeId := of_decide_eq_true (mem_filter.1 hmem).2
    simp only [State.handed, hnode, true_or, if_true]
  rw [hlocal]
  refine foldl_ext _ _ _ fun s route hmem => ?_
  have hne : route.nodeId ≠ some nodeId := by simpa [isLocal] using (mem_filter.1 hmem).2
  simp only [State.handed]
  cases hnode : route.nodeId with
  | none => rfl
  | some nodeId' =>
      have hnot : nodeId ≠ nodeId' := fun heq => hne (hnode.trans (congrArg some heq.symm))
      simp only [Option.map_some, settle, hnot, false_or]

/-! ### The end of a connection -/

lemma endpoints_disconnect (h : b'.endpoints = b.endpoints) (id : ℕ) :
    (b'.disconnect id).endpoints = (b.disconnect id).endpoints := by
  have hend : b'.endpoint id = b.endpoint id := by
    simp only [Broker.endpoint]
    rw [h]
  simp only [Broker.disconnect]
  rw [hend]
  cases b.endpoint id with
  | none => exact h
  | some endpoint => exact congrArg (List.set · id endpoint.close) h

lemma length_disconnect (b : Broker) (id : ℕ) :
    (b.disconnect id).endpoints.length = b.endpoints.length := by
  simp only [Broker.disconnect]
  cases b.endpoint id with
  | none => rfl
  | some endpoint => exact length_set ..

/-- The cluster without a connection. -/
def disconnect (s : State) (id : ℕ) : State :=
  { s with endpoints := ((s.node 0).disconnect id).endpoints }

lemma endpoints_node_disconnect (nodeId : UUID) (id : ℕ) :
    ((s.node nodeId).disconnect id).endpoints = (s.disconnect id).endpoints :=
  endpoints_disconnect (show (s.node nodeId).endpoints = (s.node 0).endpoints from rfl) id

/-- The cluster without a wrapper. -/
def remove (s : State) (nodeId : UUID) (c : Str) : State :=
  { s with wrappers := Function.update s.wrappers nodeId ((s.wrappers nodeId).remove c) }

/-- The cluster without a session. -/
def destroy (s : State) (c : Str) : State :=
  { s with cacheService := Broker.destroyClean s.cacheService c }

lemma destroyClean_thisNodeId (cacheService : CacheService) (c : Str) :
    { Broker.destroyClean { cacheService with thisNodeId := nodeId } c with
      thisNodeId := cacheService.thisNodeId } = Broker.destroyClean cacheService c := by
  simp only [Broker.destroyClean, CacheService.deleteSession]
  split_ifs <;> rfl

/-- The end of the connection of a wrapper. -/
lemma Sound.close_held (h : s.Sound m b) (hget : (s.wrappers nodeId).get c = some w) :
    s.close nodeId w.endpoint =
      if w.kind = .transient then ((s.disconnect w.endpoint).remove nodeId c).destroy c
      else (s.disconnect w.endpoint).remove nodeId c := by
  have hinv := h.node_inv nodeId
  have hv := ((hinv.own c).live w hget).valid
  simp only [State.close, State.onNode]
  rw [hinv.close_eq ((Broker.getWrapper_eq hv).trans hget), Broker.removeWrapper_eq hv,
    Broker.disconnect_wrappers]
  split_ifs
  · simp only [Broker.withCache, endpoints_node_disconnect, destroy, remove, State.mk.injEq,
      true_and]
    exact ⟨rfl, destroyClean_thisNodeId _ _, rfl, rfl, rfl, rfl⟩
  · simp only [Broker.disconnect_cacheService, endpoints_node_disconnect, remove, State.mk.injEq,
      true_and]
    exact ⟨rfl, rfl, rfl, rfl, rfl, rfl⟩

/-- The connection is that of a wrapper on its node, or no wrapper has it. -/
lemma Sound.held_or (h : s.Sound m b) {id : ℕ} (hid : s.nodeIds[id]? = some nodeId) :
    (∃ c w, (s.wrappers nodeId).get c = some w ∧ w.endpoint = id) ∨
      id < s.endpoints.length ∧
        ∀ nodeId' c w, (s.wrappers nodeId').get c = some w → w.endpoint ≠ id := by
  by_cases hheld : ∃ c w, (s.wrappers nodeId).get c = some w ∧ w.endpoint = id
  · exact Or.inl hheld
  · obtain ⟨hlt, -⟩ := List.getElem?_eq_some_iff.1 hid
    refine Or.inr ⟨h.placed.length ▸ hlt, fun nodeId' c w hget heq => ?_⟩
    -- the connection of a wrapper is on the node of the wrapper
    have hconnection := ((h.placed.own c).holds nodeId' w hget).connection
    rw [heq, hid] at hconnection
    obtain rfl := Option.some.inj hconnection
    exact hheld ⟨c, w, hget, heq⟩

/-- Two wrappers have different connections. -/
lemma Sound.eq_of_endpoint (h : s.Sound m b) {c' : Str} {w' : Wrapper}
    (hget : (s.wrappers nodeId).get c = some w) (hget' : (s.wrappers nodeId').get c' = some w')
    (heq : w.endpoint = w'.endpoint) : c = c' := by
  have howner := (((h.node_inv nodeId).own c).live w hget).owner
  rw [heq] at howner
  exact congrArg Prod.fst (Option.some.inj (howner.symm.trans
    (((h.node_inv nodeId').own c').live w' hget').owner))

/-- The end of a connection that no wrapper has. -/
lemma close_unheld {id : ℕ} (hid : id < s.endpoints.length)
    (hnot : ∀ c w, (s.wrappers nodeId).get c = some w → w.endpoint ≠ id) :
    s.close nodeId id = s.disconnect id := by
  have hclose : (s.node nodeId).step (.close id) = (s.node nodeId).disconnect id := by
    refine Broker.close_eq_disconnect (getElem?_eq_getElem hid) fun w hget => ?_
    rw [Broker.getWrapper_eq (Broker.valid_of_getWrapper hget)] at hget
    exact hnot _ w hget
  simp only [State.close, State.onNode]
  rw [hclose, Broker.disconnect_cacheService, Broker.disconnect_wrappers, endpoints_node_disconnect]
  simp only [node, Function.update_eq_self]
  rfl

lemma Shows.disconnect (h : s.Shows m b) (id : ℕ) :
    (s.disconnect id).Shows m (b.disconnect id) := by
  refine ⟨?_, endpoints_disconnect h.endpoints id, fun c w => ?_⟩
  · rw [Broker.disconnect_cacheService]
    exact h.cacheService
  · rw [Broker.disconnect_wrappers]
    exact h.wrappers c w

lemma Shows.remove (h : s.Shows m b) (halone : s.Alone nodeId c)
    (hv : IdUtil.validateClientId c = true) :
    (s.remove nodeId c).Shows m (b.removeWrapper c) := by
  rw [Broker.removeWrapper_eq hv]
  refine ⟨h.cacheService, h.endpoints, fun c' w => ?_⟩
  simp only [State.remove, Function.update_apply, PlainMap.get_remove]
  split_ifs with heq
  · refine iff_of_false (by simp) ?_
    rintro ⟨nodeId', hget⟩
    split_ifs at hget with hne
    · rw [PlainMap.get_remove, if_pos heq] at hget
      cases hget
    · rw [heq, halone nodeId' hne] at hget
      cases hget
  · refine (h.wrappers c' w).trans (exists_congr fun nodeId' => ?_)
    split_ifs with hne
    · rw [hne, PlainMap.get_remove_of_ne _ heq]
    · rfl

lemma Shows.destroy (h : s.Shows m b) (c : Str) :
    (s.destroy c).Shows m (b.withCache (Broker.destroyClean b.cacheService c)) := by
  refine ⟨?_, h.endpoints, h.wrappers⟩
  simp only [Broker.withCache, State.destroy]
  rw [h.cacheService, Broker.destroyClean, Broker.destroyClean,
    CacheService.blind_deleteSession c, CacheService.blind_destroyTransientSession c]

lemma Placed.disconnect (h : s.Placed) (id : ℕ) : (s.disconnect id).Placed := by
  refine ⟨h.routers, ?_, fun c => ⟨(h.own c).keyed, (h.own c).transient, fun nodeId w hget => ?_⟩⟩
  · exact h.length.trans (length_disconnect (s.node 0) id).symm
  · obtain ⟨hrunning, hconnection, hsession, hrouters⟩ := (h.own c).holds nodeId w hget
    exact ⟨hrunning, hconnection, hsession, hrouters⟩

/-- A client has no wrapper any more, and no record of a clean session. -/
lemma Placed.without (h : s.Placed) (hrunning : s'.running = s.running)
    (hnodeIds : s'.nodeIds = s.nodeIds) (hlength : s'.endpoints.length = s.endpoints.length)
    (hcache : CacheService.SameElse s.cacheService s'.cacheService c)
    (hwrappers : ∀ nodeId c', c' ≠ c → (s'.wrappers nodeId).get c' = (s.wrappers nodeId).get c')
    (hnone : ∀ nodeId, (s'.wrappers nodeId).get c = none)
    (hsession : ∀ session, (s'.cacheService.data c).session = some session →
      (s.cacheService.data c).session = some session ∧ session.cleanSession = false) :
    s'.Placed := by
  refine ⟨hcache.routers h.routers, by rw [hnodeIds, hlength, h.length], fun c' => ?_⟩
  by_cases heq : c' = c
  · subst heq
    refine ⟨fun session hs => (h.own c').keyed session (hsession session hs).1,
      fun session hs hclean => ?_, fun nodeId w hget => ?_⟩
    · cases (hsession session hs).2.symm.trans hclean
    · cases (hnone nodeId).symm.trans hget
  · have hdata := hcache.data c' heq
    refine ⟨fun session hs => (h.own c').keyed session (hdata ▸ hs), fun session hs hclean => ?_,
      fun nodeId w hget => ?_⟩
    · rw [hwrappers _ c' heq]
      exact (h.own c').transient session (hdata ▸ hs) hclean
    · obtain ⟨hrun, hconnection, hsession, hrouters⟩ :=
        (h.own c').holds nodeId w ((hwrappers nodeId c' heq).symm.trans hget)
      exact ⟨hrunning ▸ hrun, hnodeIds ▸ hconnection, hdata.symm ▸ hsession,
        hdata.symm ▸ hrouters⟩

lemma get_remove_of_ne {c' : Str} (hne : c' ≠ c) (nodeId' : UUID) :
    ((s.remove nodeId c).wrappers nodeId').get c' = (s.wrappers nodeId').get c' := by
  simp only [State.remove, Function.update_apply]
  split_ifs with heq
  · rw [heq, PlainMap.get_remove_of_ne _ hne]
  · rfl

lemma get_remove_self (halone : s.Alone nodeId c) (nodeId' : UUID) :
    ((s.remove nodeId c).wrappers nodeId').get c = none := by
  simp only [State.remove, Function.update_apply]
  split_ifs with heq
  · exact PlainMap.get_remove_self _ _
  · exact halone nodeId' heq

lemma Sound.close (h : s.Sound m b) {id : ℕ} (hid : s.nodeIds[id]? = some nodeId) :
    (s.close nodeId id).Sound m (b.step (.close id)) := by
  have hinv' : (b.step (.close id)).Inv := h.inv.step (.close id)
  rcases h.held_or hid with ⟨c, w, hget, rfl⟩ | ⟨hlt, hnot⟩
  · have halone := h.placed.alone hget
    have hlive := ((h.node_inv nodeId).own c).live w hget
    have hrow : (s.cacheService.data c).session = _ := hlive.session
    have hshows := (h.shows.disconnect w.endpoint).remove halone hlive.valid
    have hlength := length_disconnect (s.node 0) w.endpoint
    rw [h.close_held hget]
    have hb := h.inv.close_eq ((Broker.getWrapper_eq hlive.valid).trans
      ((h.shows.wrappers c w).2 ⟨nodeId, hget⟩))
    split_ifs at hb ⊢ with hkind
    · obtain ⟨hsame, hdata⟩ := Broker.data_closeClean (b := ⟨s.cacheService, s.endpoints, ∅⟩)
        h.placed.routers hlive.valid
      have hdestroyed := hshows.destroy c
      rw [show ((b.disconnect w.endpoint).removeWrapper c).cacheService = b.cacheService by
        rw [Broker.removeWrapper_eq hlive.valid, Broker.disconnect_cacheService]] at hdestroyed
      refine ⟨h.placed.without rfl rfl hlength hsame
        (fun nodeId' c' hne => get_remove_of_ne hne nodeId') (get_remove_self halone)
        fun session hs => ?_, hb ▸ hdestroyed, hinv'⟩
      cases (congrArg ClientData.session hdata).symm.trans hs
    · refine ⟨h.placed.without rfl rfl hlength (.refl _ _)
        (fun nodeId' c' hne => get_remove_of_ne hne nodeId') (get_remove_self halone)
        fun session hs => ⟨hs, ?_⟩, hb ▸ hshows, hinv'⟩
      obtain rfl := Option.some.inj (hrow.symm.trans hs)
      simpa using hkind
  · rw [close_unheld hlt (hnot nodeId)]
    have hb : b.step (.close id) = b.disconnect id := by
      refine Broker.close_eq_disconnect (getElem?_eq_getElem (h.shows.endpoints ▸ hlt))
        fun w hget => ?_
      rw [Broker.getWrapper_eq (Broker.valid_of_getWrapper hget), h.shows.wrappers] at hget
      obtain ⟨nodeId', hget⟩ := hget
      exact hnot nodeId' _ w hget
    exact ⟨h.placed.disconnect id, hb ▸ h.shows.disconnect id, hinv'⟩

/-! ### A connection -/

/-- The client has a wrapper on the node that it has connected to. -/
lemma Placed.connected (h : s.Placed) (hrunning : nodeId ∈ s.running) {cleanSession : Bool}
    {v : Broker} (hc : (s.node nodeId).Connected c cleanSession v)
    (hdata : ∀ c', s'.cacheService.data c' = v.cacheService.data c')
    (hrouters : s'.cacheService.routerCache = v.cacheService.routerCache)
    (hnodeIds : s'.nodeIds = s.nodeIds ++ [nodeId]) (hrunning' : s'.running = s.running)
    (hlength : s'.endpoints.length = s.endpoints.length + 1)
    (hget : (s'.wrappers nodeId).get c = v.wrappers.get c) (halone : s'.Alone nodeId c)
    (hwrappers : ∀ nodeId' c', c' ≠ c →
      (s'.wrappers nodeId').get c' = (s.wrappers nodeId').get c') : s'.Placed := by
  obtain ⟨w, hw, hl, hend, -⟩ := hc.live
  have hrow : (s'.cacheService.data c).session =
      some ⟨c, decide (w.kind = .transient), nodeId⟩ := by
    rw [hdata, hl.session, hc.sameElse.cache.thisNodeId]
    rfl
  refine ⟨?_, by rw [hnodeIds, hlength, length_append, h.length]; rfl, fun c' => ?_⟩
  · rw [hrouters]
    exact hc.sameElse.cache.routers h.routers
  by_cases heq : c' = c
  · subst heq
    refine ⟨fun session hs => ?_, fun session hs _ => ?_, fun nodeId' w' hget' => ?_⟩
    · obtain rfl := Option.some.inj (hrow.symm.trans hs)
      exact ⟨rfl, hl.valid⟩
    · obtain rfl := Option.some.inj (hrow.symm.trans hs)
      rw [hget, hw]
      simp
    · by_cases hne : nodeId' = nodeId
      · subst hne
        obtain rfl := Option.some.inj ((hget.trans hw).symm.trans hget')
        refine ⟨hrunning' ▸ hrunning, ?_, ⟨_, hrow, rfl⟩, fun topic router hr => ?_⟩
        · rw [hnodeIds, hend]
          show (s.nodeIds ++ [nodeId'])[s.endpoints.length]? = _
          rw [← h.length]
          simp
        · rw [hdata, hc.routers] at hr
          obtain ⟨old, -, rfl⟩ := Option.map_eq_some_iff.1 hr
          rfl
      · rw [halone nodeId' hne] at hget'
        cases hget'
  · have hold : s'.cacheService.data c' = s.cacheService.data c' :=
      (hdata c').trans (hc.sameElse.cache.data c' heq)
    refine ⟨fun session hs => (h.own c').keyed session (hold ▸ hs), fun session hs hclean => ?_,
      fun nodeId' w' hget' => ?_⟩
    · rw [hwrappers _ c' heq]
      exact (h.own c').transient session (hold ▸ hs) hclean
    · obtain ⟨hrun, hconnection, hsession, hnodes⟩ :=
        (h.own c').holds nodeId' w' ((hwrappers nodeId' c' heq).symm.trans hget')
      refine ⟨hrunning' ▸ hrun, ?_, hold.symm ▸ hsession, hold.symm ▸ hnodes⟩
      obtain ⟨hlt, -⟩ := List.getElem?_eq_some_iff.1 hconnection
      rw [hnodeIds, getElem?_append_left hlt]
      exact hconnection

/-- The broker after the connection of another client has the same wrapper of a client. -/
lemma get_handleAccept (h : b.Inv) (hv : IdUtil.validateClientId c = true) (cleanSession : Bool)
    {c' : Str} (hne : c' ≠ c) :
    (b.handleAccept c cleanSession).2.wrappers.get c' = b.wrappers.get c' :=
  (h.connect hv cleanSession).sameElse.wrappers c' hne

lemma length_handleAccept (h : b.Inv) (hv : IdUtil.validateClientId c = true)
    (cleanSession : Bool) :
    (b.handleAccept c cleanSession).2.endpoints.length = b.endpoints.length + 1 := by
  rw [length_eq_of_owner (h.connect hv cleanSession).sameElse.owner]
  exact length_append

lemma wrappers_opened (s : State) (nodeId : UUID) (c : Str) (cleanSession : Bool) :
    (s.opened nodeId c cleanSession).wrappers = Function.update s.wrappers nodeId
      ((s.node nodeId).handleAccept c cleanSession).2.wrappers := rfl

lemma get_opened_self (nodeId : UUID) (c : Str) (cleanSession : Bool) :
    ((s.opened nodeId c cleanSession).wrappers nodeId).get c =
      ((s.node nodeId).handleAccept c cleanSession).2.wrappers.get c := by
  rw [wrappers_opened, Function.update_self]

lemma Alone.opened (h : s.Alone nodeId c) (cleanSession : Bool) :
    (s.opened nodeId c cleanSession).Alone nodeId c := by
  intro nodeId' hne
  rw [wrappers_opened, Function.update_of_ne hne]
  exact h nodeId' hne

lemma Sound.get_opened (h : s.Sound m b) (hv : IdUtil.validateClientId c = true)
    (cleanSession : Bool) (nodeId' : UUID) (c' : Str) (hne : c' ≠ c) :
    ((s.opened nodeId c cleanSession).wrappers nodeId').get c' = (s.wrappers nodeId').get c' := by
  by_cases heq : nodeId' = nodeId
  · rw [heq, wrappers_opened, Function.update_self]
    exact get_handleAccept (h.node_inv nodeId) hv cleanSession hne
  · rw [wrappers_opened, Function.update_of_ne heq]

/-- A connection of a client that has no wrapper on another node. -/
lemma Sound.opened (h : s.Sound m b) (hrunning : nodeId ∈ s.running)
    (hv : IdUtil.validateClientId c = true) (halone : s.Alone nodeId c) (cleanSession : Bool) :
    (s.opened nodeId c cleanSession).Sound m (b.handleAccept c cleanSession).2 := by
  have hinv := h.node_inv nodeId
  refine ⟨h.placed.connected hrunning (hinv.connect hv cleanSession) (fun _ => rfl) rfl rfl rfl
      (length_handleAccept hinv hv cleanSession) (get_opened_self nodeId c cleanSession)
      (halone.opened cleanSession) (h.get_opened hv cleanSession),
    h.shows.of_twin ((h.shows.twin halone).handleAccept cleanSession) rfl rfl
      (get_opened_self nodeId c cleanSession) (halone.opened cleanSession)
      (h.get_opened hv cleanSession)
      fun c' hne => get_handleAccept h.inv hv cleanSession hne,
    ?_⟩
  have hperform := h.inv.step (.connect c cleanSession)
  rwa [Broker.step, if_pos hv] at hperform

/-- The cluster after a connection of a client that had a wrapper on another node. -/
def takenOver (s : State) (nodeId nodeId' : UUID) (c : Str) (cleanSession : Bool) (id : ℕ) :
    State :=
  ((s.opened nodeId c cleanSession).disconnect id).remove nodeId' c

lemma get_takenOver_self (hne : nodeId' ≠ nodeId) (c : Str) (cleanSession : Bool) (id : ℕ) :
    ((s.takenOver nodeId nodeId' c cleanSession id).wrappers nodeId).get c =
      ((s.node nodeId).handleAccept c cleanSession).2.wrappers.get c := by
  simp only [takenOver, remove]
  rw [Function.update_of_ne hne.symm]
  exact get_opened_self nodeId c cleanSession

lemma Alone.takenOver (h : s.Alone nodeId' c) (nodeId : UUID) (cleanSession : Bool) (id : ℕ) :
    (s.takenOver nodeId nodeId' c cleanSession id).Alone nodeId c := by
  intro k hk
  simp only [State.takenOver, remove, Function.update_apply]
  split_ifs with heq
  · exact PlainMap.get_remove_self _ _
  · show ((s.opened nodeId c cleanSession).wrappers k).get c = none
    rw [wrappers_opened, Function.update_of_ne hk]
    exact h k heq

/-- The connection of the wrapper on the old node ends when the new session is open. -/
lemma Sound.close_opened (h : s.Sound m b) (hget : (s.wrappers nodeId').get c = some w)
    (hne : nodeId' ≠ nodeId) (cleanSession : Bool) :
    (s.opened nodeId c cleanSession).close nodeId' w.endpoint =
      s.takenOver nodeId nodeId' c cleanSession w.endpoint := by
  have hlive := ((h.node_inv nodeId').own c).live w hget
  have hv := hlive.valid
  have hc := (h.node_inv nodeId).connect hv cleanSession
  have hget' : ((s.opened nodeId c cleanSession).node nodeId').getWrapper c = some w := by
    rw [Broker.getWrapper_eq hv]
    show ((s.opened nodeId c cleanSession).wrappers nodeId').get c = _
    rw [wrappers_opened, Function.update_of_ne hne, hget]
  -- the record names the new node
  obtain ⟨w', hw', hl, -, -⟩ := hc.live
  have hsession : ((s.opened nodeId c cleanSession).node nodeId').cacheService.getSession c =
      some ⟨c, decide (w'.kind = .transient), nodeId⟩ := by
    rw [CacheService.getSession_eq hv]
    refine hl.session.trans ?_
    rw [hc.sameElse.cache.thisNodeId]
    rfl
  have howner : ((s.opened nodeId c cleanSession).node nodeId').owner w.endpoint =
      some (c, decide (w.kind = .transient)) := by
    refine (hc.sameElse.owner w.endpoint).trans ?_
    have hid : w.endpoint < (s.node nodeId).endpoints.length := Broker.lt_of_owner hlive.owner
    rw [Broker.owner_addEndpoint, if_neg (Nat.ne_of_lt hid)]
    exact hlive.owner
  obtain ⟨endpoint, hend, howner⟩ := Option.map_eq_some_iff.1 howner
  simp only [State.close, State.onNode]
  rw [Broker.close_held hget' hend (congrArg Prod.fst howner) hsession,
    if_neg fun h => hne h.2, Broker.removeWrapper_eq hv, Broker.disconnect_wrappers]
  simp only [Broker.disconnect_cacheService, endpoints_node_disconnect, takenOver, remove,
    State.mk.injEq, true_and]
  exact ⟨rfl, rfl, rfl, rfl, rfl, rfl⟩

/-- A connection of a client that has a wrapper on another node. -/
lemma Sound.takenOver (h : s.Sound m b) (hrunning : nodeId ∈ s.running)
    (hget : (s.wrappers nodeId').get c = some w) (hne : nodeId' ≠ nodeId) (cleanSession : Bool) :
    (s.takenOver nodeId nodeId' c cleanSession w.endpoint).Sound m
      ((b.step (.close w.endpoint)).handleAccept c cleanSession).2 := by
  have hinv := h.node_inv nodeId
  have hlive := ((h.node_inv nodeId').own c).live w hget
  have hv := hlive.valid
  have halone := h.placed.alone hget
  have hid : w.endpoint < s.endpoints.length := Broker.lt_of_owner hlive.owner
  have hnone : (s.node nodeId).getWrapper c = none := by
    rw [Broker.getWrapper_eq hv]
    exact halone nodeId hne.symm
  -- the one broker closes the connection first
  have hinv' : (b.step (.close w.endpoint)).Inv := h.inv.step _
  have hb : b.wrappers.get c = some w := (h.shows.wrappers c w).2 ⟨nodeId', hget⟩
  have hclose := h.inv.close_eq ((Broker.getWrapper_eq hv).trans hb)
  set closed := (b.disconnect w.endpoint).removeWrapper c with hclosed
  rw [Broker.removeWrapper_eq hv, Broker.disconnect_wrappers, Broker.disconnect_cacheService]
    at hclosed
  have hwrappers (c' : Str) (hc : c' ≠ c) :
      (b.step (.close w.endpoint)).wrappers.get c' = b.wrappers.get c' := by
    rw [hclose, hclosed]
    split_ifs <;> exact PlainMap.get_remove_of_ne _ hc
  have haccept : ((b.step (.close w.endpoint)).handleAccept c cleanSession).2 =
      (closed.handleAccept c cleanSession).2 := by
    have hnone' : closed.getWrapper c = none := by
      rw [Broker.getWrapper_eq hv, hclosed]
      exact PlainMap.get_remove_self _ _
    rw [hclose]
    split_ifs with hkind
    · -- the new session finds no more of a clean one
      have hcache : closed.cacheService = b.cacheService := by rw [hclosed]
      have hclean : b.cacheService.isPersistentSession c = false := by
        by_contra hpers
        obtain ⟨session, hs, hpers⟩ := (CacheService.isPersistentSession_iff hv).1
          (by simpa using hpers)
        obtain rfl := Option.some.inj ((((h.inv.own c).live w hb).session).symm.trans hs)
        simp [hkind] at hpers
      rw [← hcache] at hclean ⊢
      exact Broker.handleAccept_destroyClean (hcache ▸ h.inv.routers) hv hnone' hclean cleanSession
    · rfl
  have htwin : Broker.Twin m c (((s.node nodeId).handleAccept c cleanSession).2.disconnect
      w.endpoint) ((b.step (.close w.endpoint)).handleAccept c cleanSession).2 := by
    have hclosed' : Broker.Twin m c ((s.node nodeId).disconnect w.endpoint) closed := by
      rw [hclosed]
      refine ⟨?_, endpoints_disconnect h.shows.endpoints _, ?_⟩
      · rw [Broker.disconnect_cacheService]
        exact h.shows.cacheService
      · rw [Broker.disconnect_wrappers]
        exact (PlainMap.get_remove_self _ _).trans (halone nodeId hne.symm).symm
    rw [haccept, ← hinv.handleAccept_disconnect hv hnone hid cleanSession]
    exact hclosed'.handleAccept cleanSession
  have hself := get_takenOver_self (s := s) hne c cleanSession w.endpoint
  have halone' := halone.takenOver nodeId cleanSession w.endpoint
  have hothers (k : UUID) (c' : Str) (hc : c' ≠ c) :
      ((s.takenOver nodeId nodeId' c cleanSession w.endpoint).wrappers k).get c' =
        (s.wrappers k).get c' :=
    (get_remove_of_ne hc k).trans (h.get_opened hv cleanSession k c' hc)
  refine ⟨h.placed.connected hrunning (hinv.connect hv cleanSession) (fun _ => rfl) rfl rfl rfl
      ((length_disconnect _ _).trans (length_handleAccept hinv hv cleanSession)) hself halone'
      hothers,
    h.shows.of_twin htwin ?_ ?_ ?_ halone' hothers fun c' hc =>
      (get_handleAccept hinv' hv cleanSession hc).trans (hwrappers c' hc), ?_⟩
  · rw [Broker.disconnect_cacheService]
    rfl
  · exact endpoints_disconnect (show ((s.opened nodeId c cleanSession).node 0).endpoints =
      ((s.node nodeId).handleAccept c cleanSession).2.endpoints from rfl) w.endpoint
  · rw [Broker.disconnect_wrappers]
    exact hself
  · have hstep := hinv'.step (.connect c cleanSession)
    rwa [Broker.step, if_pos hv] at hstep

/-- The old node is the one with the wrapper. -/
lemma Sound.prevNode_eq (h : s.Sound m b) (hget : (s.wrappers nodeId').get c = some w)
    (hne : nodeId' ≠ nodeId) : s.prevNode nodeId c = some nodeId' := by
  have hv := (((h.node_inv nodeId').own c).live w hget).valid
  obtain ⟨-, -, ⟨session, hs, rfl⟩, -⟩ := (h.placed.own c).holds nodeId' w hget
  simp only [prevNode]
  rw [CacheService.getSession_eq hv, hs, Option.map_some, Option.filter_some,
    if_pos (decide_eq_true hne)]

lemma ne_of_prevNode (h : s.prevNode nodeId c = some nodeId') : nodeId' ≠ nodeId :=
  of_decide_eq_true (Option.filter_eq_some_iff.1 h).2

lemma connection_eq (hv : IdUtil.validateClientId c = true) (nodeId : UUID) :
    s.connection nodeId c = ((s.wrappers nodeId).get c).map Wrapper.endpoint := by
  simp only [connection]
  rw [Broker.getWrapper_eq hv]
  rfl

lemma kick_of_none (hnone : (s.wrappers nodeId).get c = none) : s.kick nodeId c = s := by
  simp only [kick, getWrapper_of_none hnone]

lemma kick_of_some (hv : IdUtil.validateClientId c = true)
    (hget : (s.wrappers nodeId).get c = some w) :
    s.kick nodeId c = s.close nodeId w.endpoint := by
  simp only [kick]
  rw [Broker.getWrapper_eq hv, show (s.node nodeId).wrappers.get c = some w from hget]

/-- A connection, when the old node has got the kick message. -/
lemma settled_connect (h : s.bus = []) (nodeId : UUID) (c : Str) (cleanSession : Bool) :
    (s.connect nodeId c cleanSession).settled = ((s.prevNode nodeId c).toList.foldl
      (fun s prevNodeId => s.settle (.kick prevNodeId c)) (s.opened nodeId c cleanSession)) := by
  rw [State.connect, settled_withBus, h, nil_append, foldl_map,
    show (s.opened nodeId c cleanSession).withBus [] = _ from withBus_self h]

/-- The client has a wrapper on another node, and is kicked there, or it has none. -/
lemma Sound.connect_cases (h : s.Sound m b) (hidle : s.bus = [])
    (hv : IdUtil.validateClientId c = true) (nodeId : UUID) (cleanSession : Bool) :
    s.Alone nodeId c ∧
        (s.connect nodeId c cleanSession).settled = s.opened nodeId c cleanSession ∧
        s.operations (.connect nodeId c cleanSession) = [.op (.connect c cleanSession)] ∨
      ∃ nodeId' w, nodeId' ≠ nodeId ∧ (s.wrappers nodeId').get c = some w ∧
        (s.connect nodeId c cleanSession).settled =
          s.takenOver nodeId nodeId' c cleanSession w.endpoint ∧
        s.operations (.connect nodeId c cleanSession) =
          [.op (.close w.endpoint), .op (.connect c cleanSession)] := by
  rw [settled_connect hidle]
  by_cases hheld : ∃ nodeId' w, nodeId' ≠ nodeId ∧ (s.wrappers nodeId').get c = some w
  · obtain ⟨nodeId', w, hne, hget⟩ := hheld
    refine Or.inr ⟨nodeId', w, hne, hget, ?_⟩
    have hget' : ((s.opened nodeId c cleanSession).wrappers nodeId').get c = some w := by
      rw [wrappers_opened, Function.update_of_ne hne, hget]
    have hrunning : nodeId' ∈ (s.opened nodeId c cleanSession).running :=
      ((h.placed.own c).holds nodeId' w hget).running
    simp only [operations, h.prevNode_eq hget hne, Option.bind_some, Option.toList_some,
      foldl_cons, foldl_nil, settle]
    rw [if_pos hrunning, kick_of_some hv hget', h.close_opened hget hne cleanSession,
      connection_eq hv, hget]
    exact ⟨rfl, rfl⟩
  · have halone : s.Alone nodeId c := fun nodeId' hne => by
      by_contra hsome
      obtain ⟨w, hget⟩ := Option.ne_none_iff_exists'.1 hsome
      exact hheld ⟨nodeId', w, hne, hget⟩
    refine Or.inl ⟨halone, ?_⟩
    cases hprev : s.prevNode nodeId c with
    | none =>
        simp only [operations, hprev, Option.toList_none, foldl_nil, true_and]
        rfl
    | some nodeId' =>
        have hne := ne_of_prevNode hprev
        simp only [operations, hprev, Option.bind_some, Option.toList_some, foldl_cons, foldl_nil,
          settle]
        rw [kick_of_none (halone.opened cleanSession nodeId' hne), ite_self, connection_eq hv,
          halone nodeId' hne]
        exact ⟨rfl, rfl⟩

lemma Sound.connect (h : s.Sound m b) (hidle : s.bus = []) (hrunning : nodeId ∈ s.running)
    (hv : IdUtil.validateClientId c = true) (cleanSession : Bool) :
    (s.connect nodeId c cleanSession).settled.Sound m
      ((s.operations (.connect nodeId c cleanSession)).foldl Broker.perform b) := by
  rcases h.connect_cases hidle hv nodeId cleanSession with
    ⟨halone, hconnect, hoperations⟩ | ⟨nodeId', w, hne, hget, hconnect, hoperations⟩
  · rw [hconnect, hoperations, foldl_cons, foldl_nil, Broker.perform_connect hv]
    exact h.opened hrunning hv halone cleanSession
  · rw [hconnect, hoperations, foldl_cons, foldl_cons, foldl_nil, Broker.perform_connect hv]
    exact h.takenOver hrunning hget hne cleanSession

/-- The end of the connection on the old node, as its client sees it. -/
lemma Sound.closed_takenOver (h : s.Sound m b) (hget : (s.wrappers nodeId').get c = some w)
    (nodeId : UUID) (cleanSession : Bool) :
    ((s.takenOver nodeId nodeId' c cleanSession w.endpoint).endpoints[w.endpoint]?).map
      MqttEndpoint.isConnected = some false := by
  have hlive := ((h.node_inv nodeId').own c).live w hget
  have howner := ((h.node_inv nodeId).connect hlive.valid cleanSession).sameElse.owner w.endpoint
  have hid : w.endpoint < (s.node nodeId).endpoints.length := Broker.lt_of_owner hlive.owner
  rw [Broker.owner_addEndpoint, if_neg (Nat.ne_of_lt hid)] at howner
  obtain ⟨endpoint, hend, -⟩ := Option.map_eq_some_iff.1 (howner.trans hlive.owner)
  have hclosed := Broker.endpoint_disconnect (b := (s.opened nodeId c cleanSession).node 0)
    w.endpoint w.endpoint
  rw [if_pos rfl, show ((s.opened nodeId c cleanSession).node 0).endpoint w.endpoint =
    some endpoint from hend] at hclosed
  exact congrArg (Option.map MqttEndpoint.isConnected) hclosed

/-! ### A node is gone -/

/-- What the ends of some connections do to connections and wrappers. -/
structure Closed (s : State) (ids : List ℕ) (s' : State) : Prop where
  nodeIds : s'.nodeIds = s.nodeIds
  running : s'.running = s.running
  endpoints : ∀ id, s'.endpoints[id]? = s.endpoints[id]?.map fun endpoint =>
    if id ∈ ids then endpoint.close else endpoint
  wrappers : ∀ nodeId c w, (s'.wrappers nodeId).get c = some w ↔
    (s.wrappers nodeId).get c = some w ∧ w.endpoint ∉ ids

lemma Closed.refl (s : State) : s.Closed [] s :=
  ⟨rfl, rfl, fun _ => by simp, fun _ _ _ => by simp⟩

lemma Closed.trans {s'' : State} {ids ids' : List ℕ} (h : s.Closed ids s')
    (h' : s'.Closed ids' s'') : s.Closed (ids ++ ids') s'' where
  nodeIds := h'.nodeIds.trans h.nodeIds
  running := h'.running.trans h.running
  endpoints := fun id => by
    rw [h'.endpoints, h.endpoints, Option.map_map]
    congr 1
    funext endpoint
    by_cases hmem : id ∈ ids <;> by_cases hmem' : id ∈ ids' <;>
      simp [hmem, hmem', MqttEndpoint.close]
  wrappers := fun nodeId c w => by
    rw [h'.wrappers, h.wrappers, and_assoc, mem_append, not_or]

lemma Sound.closed_close (h : s.Sound m b) {id : ℕ} (hid : s.nodeIds[id]? = some nodeId) :
    s.Closed [id] (s.close nodeId id) := by
  have hends (i : ℕ) : (s.disconnect id).endpoints[i]? = s.endpoints[i]?.map fun endpoint =>
      if i ∈ [id] then endpoint.close else endpoint := by
    refine (Broker.endpoint_disconnect (b := s.node 0) id i).trans ?_
    simp only [mem_singleton]
    split_ifs with heq
    · rw [heq]
      rfl
    · exact Option.map_id'.symm
  rcases h.held_or hid with ⟨c, w, hget, rfl⟩ | ⟨hid', hnot⟩
  · have hwrappers (k : UUID) (c' : Str) (w' : Wrapper) :
        ((s.remove nodeId c).wrappers k).get c' = some w' ↔
          (s.wrappers k).get c' = some w' ∧ w'.endpoint ∉ [w.endpoint] := by
      rw [mem_singleton]
      by_cases hc : c' = c
      · rw [hc, get_remove_self (h.placed.alone hget)]
        refine iff_of_false (by simp) fun hget' => hget'.2 ?_
        obtain rfl := h.placed.unique hget'.1 hget
        rw [Option.some.inj (hget'.1.symm.trans hget)]
      · rw [get_remove_of_ne hc]
        exact (and_iff_left_of_imp fun hget' heq => hc (h.eq_of_endpoint hget' hget heq)).symm
    rw [h.close_held hget]
    split_ifs
    · exact ⟨rfl, rfl, hends, hwrappers⟩
    · exact ⟨rfl, rfl, hends, hwrappers⟩
  · rw [close_unheld hid' (hnot nodeId)]
    refine ⟨rfl, rfl, hends, fun k c w => (and_iff_left_of_imp fun hget => ?_).symm⟩
    rw [mem_singleton]
    exact hnot k c w hget

/-- Connections end on a node, one after the other. -/
def closes (s : State) (nodeId : UUID) (ids : List ℕ) : State :=
  ids.foldl (fun s id => s.close nodeId id) s

lemma Sound.closes (h : s.Sound m b) {ids : List ℕ}
    (hids : ∀ id ∈ ids, s.nodeIds[id]? = some nodeId) :
    (s.closes nodeId ids).Sound m
        ((ids.map fun id => .op (.close id)).foldl Broker.perform b) ∧
      s.Closed ids (s.closes nodeId ids) := by
  induction ids generalizing s b with
  | nil => exact ⟨h, .refl s⟩
  | cons id ids ih =>
      obtain ⟨hid, hids⟩ := forall_mem_cons.1 hids
      have hclosed := h.closed_close hid
      obtain ⟨hsound, hcloses⟩ := ih (h.close hid) fun i hmem => hclosed.nodeIds ▸ hids i hmem
      exact ⟨hsound, hclosed.trans hcloses⟩

/-- The ends of connections of persistent sessions leave the caches as they are. -/
lemma Sound.cacheService_closes (h : s.Sound m b) {ids : List ℕ}
    (hids : ∀ id ∈ ids, s.nodeIds[id]? = some nodeId)
    (hkind : ∀ c w, (s.wrappers nodeId).get c = some w → w.kind ≠ .transient) :
    (s.closes nodeId ids).cacheService = s.cacheService := by
  induction ids generalizing s b with
  | nil => rfl
  | cons id ids ih =>
      obtain ⟨hid, hids⟩ := forall_mem_cons.1 hids
      have hclosed := h.closed_close hid
      refine (ih (h.close hid) (fun i hmem => hclosed.nodeIds ▸ hids i hmem)
        fun c w hget => hkind c w ((hclosed.wrappers nodeId c w).1 hget).1).trans ?_
      rcases h.held_or hid with ⟨c, w, hget, rfl⟩ | ⟨hid', hnot⟩
      · rw [h.close_held hget, if_neg (hkind c w hget)]
        rfl
      · rw [close_unheld hid' (hnot nodeId)]
        rfl

lemma Placed.mem_transientSessions (h : s.Placed) (session : MqttSession) :
    session ∈ transientSessions s.cacheService nodeId ↔
      (s.cacheService.data session.clientId).session = some session ∧ session.nodeId = nodeId ∧
        session.cleanSession = true := by
  simp only [transientSessions, mem_filter, Bool.and_eq_true, decide_eq_true_eq]
  refine and_congr_left fun _ => (PlainMap.mem_values_iff _ _).trans ⟨?_, fun hs => ⟨_, hs⟩⟩
  rintro ⟨key, hget⟩
  obtain ⟨rfl, -⟩ := (h.own key).keyed session hget
  exact hget

/-- The record of a clean session is that of the client of its wrapper. -/
lemma Sound.exists_wrapper (h : s.Sound m b) {session : MqttSession}
    (hs : session ∈ transientSessions s.cacheService nodeId) :
    ∃ w, (s.wrappers nodeId).get session.clientId = some w ∧ w.kind = .transient := by
  obtain ⟨hrow, rfl, hclean⟩ := (h.placed.mem_transientSessions session).1 hs
  obtain ⟨w, hw⟩ := Option.ne_none_iff_exists'.1
    ((h.placed.own session.clientId).transient session hrow hclean)
  refine ⟨w, hw, ?_⟩
  have hlive := (((h.node_inv session.nodeId).own session.clientId).live w hw).session
  rw [show ((s.node session.nodeId).cacheService.data session.clientId).session = some session
    from hrow, Option.some.injEq] at hlive
  rw [hlive] at hclean
  simpa using hclean

/-- A clean session is destroyed in the same way by the end of its connection. -/
lemma Sound.close_transient (h : s.Sound m b) {session : MqttSession}
    (hs : session ∈ transientSessions s.cacheService nodeId)
    (hget : (s.wrappers nodeId).get session.clientId = some w) (hkind : w.kind = .transient) :
    (s.close nodeId w.endpoint).cacheService = destroySession s.cacheService session := by
  obtain ⟨hrow, -, hclean⟩ := (h.placed.mem_transientSessions session).1 hs
  have hv := (((h.node_inv nodeId).own _).live w hget).valid
  rw [h.close_held hget, if_pos hkind]
  simp only [destroySession]
  rw [CacheService.getSession_eq hv, hrow, hclean]
  simp only [if_true]
  rfl

lemma Sound.cacheService_lost (h : s.Sound m b) {sessions : List MqttSession}
    (hsessions : ∀ session ∈ sessions, session ∈ transientSessions s.cacheService nodeId)
    (hnodup : (sessions.map MqttSession.clientId).Nodup) :
    (s.closes nodeId (sessions.filterMap fun session =>
        s.connection nodeId session.clientId)).cacheService =
      sessions.foldl destroySession s.cacheService := by
  induction sessions generalizing s b with
  | nil => rfl
  | cons session sessions ih =>
      obtain ⟨hs, hsessions⟩ := forall_mem_cons.1 hsessions
      obtain ⟨hnot, hnodup⟩ := nodup_cons.1 hnodup
      obtain ⟨w, hget, hkind⟩ := h.exists_wrapper hs
      have hlive := ((h.node_inv nodeId).own _).live w hget
      have hid := ((h.placed.own _).holds nodeId w hget).connection
      have hne (session' : MqttSession) (hmem : session' ∈ sessions) :
          session'.clientId ≠ session.clientId := fun heq =>
        hnot (heq ▸ mem_map_of_mem hmem)
      have hsound := h.close hid
      -- nothing changes for the other clients
      have hsame : (sessions.filterMap fun session' => s.connection nodeId session'.clientId) =
          sessions.filterMap fun session' =>
            (s.close nodeId w.endpoint).connection nodeId session'.clientId := by
        refine filterMap_congr fun session' hmem => ?_
        have hget' : ((s.close nodeId w.endpoint).wrappers nodeId).get session'.clientId =
            (s.wrappers nodeId).get session'.clientId := by
          rw [h.close_held hget, if_pos hkind]
          exact get_remove_of_ne (hne session' hmem) nodeId
        have hv := ((h.placed.own _).keyed session'
          ((h.placed.mem_transientSessions session').1 (hsessions session' hmem)).1).2
        rw [connection_eq hv, connection_eq hv, hget']
      rw [filterMap_cons, connection_eq hlive.valid, hget]
      show ((s.close nodeId w.endpoint).closes nodeId _).cacheService = _
      rw [hsame, foldl_cons, ← h.close_transient hs hget hkind]
      refine ih hsound (fun session' hmem => ?_) hnodup
      obtain ⟨hrow, hnode⟩ := (h.placed.mem_transientSessions session').1 (hsessions session' hmem)
      refine (hsound.placed.mem_transientSessions session').2 ⟨?_, hnode⟩
      rw [h.close_held hget, if_pos hkind]
      have hdata := (Broker.data_closeClean (b := ⟨s.cacheService, s.endpoints, ∅⟩)
        h.placed.routers hlive.valid).1.data _ (hne session' hmem)
      exact (congrArg ClientData.session hdata).trans hrow

/-- What matters of a state is what a wrapper can be got for. -/
lemma Sound.congr (h : s.Sound m b) (hcache : s'.cacheService = s.cacheService)
    (hends : s'.endpoints = s.endpoints) (hnodeIds : s'.nodeIds = s.nodeIds)
    (hwrappers : ∀ nodeId c, (s'.wrappers nodeId).get c = (s.wrappers nodeId).get c)
    (hrunning : ∀ nodeId c w, (s.wrappers nodeId).get c = some w → nodeId ∈ s'.running) :
    s'.Sound m b := by
  obtain ⟨placed, shows, inv⟩ := h
  refine ⟨⟨hcache ▸ placed.routers, by rw [hnodeIds, hends, placed.length], fun c =>
    ⟨hcache ▸ (placed.own c).keyed, fun session hs hclean => ?_, fun nodeId w hget => ?_⟩⟩,
    ⟨shows.cacheService.trans (congrArg _ hcache.symm), shows.endpoints.trans hends.symm,
      fun c w => ?_⟩, inv⟩
  · rw [hwrappers]
    exact (placed.own c).transient session (hcache ▸ hs) hclean
  · rw [hwrappers] at hget
    obtain ⟨-, hconnection, hsession, hrouters⟩ := (placed.own c).holds nodeId w hget
    exact ⟨hrunning nodeId c w hget, hnodeIds ▸ hconnection, hcache ▸ hsession,
      hcache ▸ hrouters⟩
  · rw [shows.wrappers c w]
    exact exists_congr fun nodeId => by rw [hwrappers]

lemma mem_connections {id : ℕ} (h : s.Placed) :
    id ∈ s.connections nodeId ↔ s.nodeIds[id]? = some nodeId := by
  simp only [connections, mem_filter, mem_range, decide_eq_true_eq]
  refine and_iff_right_of_imp fun hid => ?_
  obtain ⟨hlt, -⟩ := List.getElem?_eq_some_iff.1 hid
  exact h.length ▸ hlt

lemma Sound.leave (h : s.Sound m b) (nodeId : UUID) :
    (s.leave nodeId).Sound m ((s.operations (.leave nodeId)).foldl Broker.perform b) := by
  set transient := (transientSessions s.cacheService nodeId).filterMap fun session =>
    s.connection nodeId session.clientId with htransient
  have htransientIds : ∀ id ∈ transient, s.nodeIds[id]? = some nodeId := by
    intro id hmem
    obtain ⟨session, hs, hid⟩ := mem_filterMap.1 hmem
    obtain ⟨w, hw, rfl⟩ := Option.map_eq_some_iff.1 hid
    rw [Broker.getWrapper_eq (Broker.valid_of_getWrapper hw)] at hw
    exact ((h.placed.own _).holds nodeId w hw).connection
  have hids : ∀ id, id ∈ s.lost nodeId ↔ s.nodeIds[id]? = some nodeId := by
    intro id
    simp only [State.lost, mem_append]
    rw [mem_connections h.placed]
    exact or_iff_right_of_imp (htransientIds id)
  obtain ⟨hsound, hclosed⟩ := h.closes fun id hmem => (hids id).1 hmem
  obtain ⟨hsound', hclosed'⟩ := h.closes htransientIds
  have hcache : (s.closes nodeId (s.lost nodeId)).cacheService =
      destroyTransientSessions s.cacheService nodeId := by
    have hnodup : ((transientSessions s.cacheService nodeId).map MqttSession.clientId).Nodup :=
      (PlainMap.nodup_map_values fun c session hs => ((h.placed.own c).keyed session hs).1).sublist
        (filter_sublist.map _)
    rw [destroyTransientSessions, ← h.cacheService_lost (fun _ hs => hs) hnodup]
    simp only [State.lost, State.closes]
    rw [foldl_append]
    refine hsound'.cacheService_closes (fun id hmem => ?_) fun c w hget hkind => ?_
    · rw [hclosed'.nodeIds]
      exact (mem_connections h.placed).1 hmem
    · -- the connection of a wrapper of a clean session has been closed
      obtain ⟨hold, hnot⟩ := (hclosed'.wrappers nodeId c w).1 hget
      have hlive := ((h.node_inv nodeId).own c).live w hold
      have hrow : (s.cacheService.data c).session = _ := hlive.session
      refine hnot (mem_filterMap.2 ⟨⟨c, true, nodeId⟩,
        (h.placed.mem_transientSessions _).2 ⟨?_, rfl, rfl⟩, ?_⟩)
      · rw [hrow, hkind]
        rfl
      · rw [connection_eq hlive.valid, hold]
        rfl
  have hoperations : s.operations (.leave nodeId) =
      (s.lost nodeId).map fun id => .op (.close id) := rfl
  rw [hoperations]
  refine hsound.congr hcache.symm ?_ hclosed.nodeIds.symm (fun k c => ?_) fun k c w hget => ?_
  · refine ext_getElem? fun id => ?_
    rw [hclosed.endpoints]
    simp only [State.leave, getElem?_mapIdx]
    exact congrArg (Option.map · _) (funext fun endpoint => if_congr (hids id).symm rfl rfl)
  · refine Option.ext fun w => ?_
    rw [hclosed.wrappers, hids]
    simp only [State.leave, Function.update_apply]
    split_ifs with heq
    · subst heq
      refine iff_of_false (by simp) fun hget => hget.2 ?_
      exact ((h.placed.own c).holds k w hget.1).connection
    · refine (and_iff_left_of_imp fun hget hid => heq ?_).symm
      exact Option.some.inj ((((h.placed.own c).holds k w hget).connection).symm.trans hid)
  · obtain ⟨hold, hnot⟩ := (hclosed.wrappers k c w).1 hget
    have hholds := (h.placed.own c).holds k w hold
    refine Finset.mem_erase.2 ⟨fun heq => hnot ((hids _).2 (heq ▸ hholds.connection)),
      hholds.running⟩

/-- An orderly step.  What counts of a state is what it leads to when nothing is under way. -/
lemma Sound.step (h : s.settled.Sound m b) {action : Action} (horderly : Orderly s action)
    (hstep : Clustered.step s action = some s') :
    s'.settled.Sound m ((s.operations action).foldl Broker.perform b) := by
  cases action with
  | connect nodeId clientId cleanSession =>
      rw [settled_of_idle horderly] at h
      simp only [Clustered.step, Option.ite_none_right_eq_some, Option.some.injEq] at hstep
      obtain ⟨⟨hrunning, hv⟩, rfl⟩ := hstep
      exact h.connect horderly hrunning hv cleanSession
  | close id =>
      rw [settled_of_idle horderly] at h
      simp only [Clustered.step] at hstep
      cases hid : s.nodeIds[id]? with
      | none =>
          rw [hid] at hstep
          cases hstep
      | some nodeId =>
          simp only [hid, Option.ite_none_right_eq_some, Option.some.injEq] at hstep
          obtain ⟨-, rfl⟩ := hstep
          rw [settled_of_idle (show (s.close nodeId id).bus = [] from horderly)]
          exact h.close hid
  | request nodeId clientId request =>
      rw [settled_of_idle horderly] at h
      simp only [Clustered.step, Option.ite_none_right_eq_some, Option.some.injEq] at hstep
      obtain ⟨-, rfl⟩ := hstep
      rw [settled_of_idle (show (s.onNode nodeId _).bus = [] from horderly)]
      exact h.request nodeId clientId request
  | publish nodeId topic message qos =>
      rw [settled_of_idle horderly] at h
      simp only [Clustered.step, Option.ite_none_right_eq_some, Option.some.injEq] at hstep
      obtain ⟨hrunning, rfl⟩ := hstep
      rw [settled_publish horderly, operations, foldl_map]
      exact h.foldl_handed hrunning message fun route hmem => h.placed.routed hmem
  | join nodeId =>
      rw [settled_of_idle horderly] at h
      simp only [Clustered.step, Option.ite_none_left_eq_some, Option.some.injEq] at hstep
      obtain ⟨-, rfl⟩ := hstep
      rw [settled_of_idle (show State.bus { s with running := insert nodeId s.running } = [] from
        horderly)]
      exact h.congr rfl rfl rfl (fun _ _ => rfl) fun k c w hget =>
        Finset.mem_insert_of_mem ((h.placed.own c).holds k w hget).running
  | leave nodeId =>
      rw [settled_of_idle horderly] at h
      simp only [Clustered.step, Option.ite_none_right_eq_some, Option.some.injEq] at hstep
      obtain ⟨-, rfl⟩ := hstep
      rw [settled_of_idle (show (s.leave nodeId).bus = [] from horderly)]
      exact h.leave nodeId
  | arrive i | fail i | lose i =>
      rw [settled_of_ofBus (by trivial) horderly hstep]
      exact h

/-! ### Runs -/

/-- The cluster after the start of its first node: nobody is connected, nothing is under way, and
what is stored is of persistent sessions only. -/
structure Started (s : State) : Prop where
  bus : s.bus = []
  endpoints : s.endpoints = []
  nodeIds : s.nodeIds = []
  wrappers : ∀ nodeId, s.wrappers nodeId = ∅
  stored : (⟨s.cacheService, [], ∅⟩ : Broker).Restarted
  sessions : ∀ clientId session, (s.cacheService.data clientId).session = some session →
    session.clientId = clientId ∧ IdUtil.validateClientId clientId = true ∧
      session.cleanSession = false

/-- The one broker at the start, with the same in its caches. -/
def broker (s : State) (nodeId : UUID) : Broker := ⟨s.cacheService.gather nodeId, [], ∅⟩

lemma Started.sound (h : s.Started) (m : UUID) : s.Sound m (s.broker m) := by
  have hdata (c : Str) : (s.cacheService.gather m).data c = _ := CacheService.data_gather
  refine ⟨⟨h.stored.routers, by simp [h.nodeIds, h.endpoints], fun c => ⟨fun session hs => ?_,
    fun session hs hclean => ?_, fun nodeId w hget => ?_⟩⟩,
    ⟨rfl, h.endpoints.symm, fun c w => ?_⟩, ?_⟩
  · obtain ⟨hclient, hv, -⟩ := h.sessions c session hs
    exact ⟨hclient, hv⟩
  · cases (h.sessions c session hs).2.2.symm.trans hclean
  · rw [h.wrappers] at hget
    cases hget
  · refine iff_of_false (fun hget => by cases hget) ?_
    rintro ⟨nodeId, hget⟩
    rw [h.wrappers] at hget
    cases hget
  · refine Broker.Restarted.inv ⟨rfl, rfl, h.stored.routers.gather m, fun c hnot => ?_, fun c => ?_⟩
    · have hstores := h.stored.stores c fun hpers => hnot ?_
      · show ((s.cacheService.gather m).data c).NoStores
        rw [hdata]
        exact hstores
      · obtain ⟨session, hs, hclean⟩ := hpers
        show ((s.cacheService.gather m).data c).Persistent
        rw [hdata]
        exact ⟨{ session with nodeId := m }, congrArg (Option.map _) hs, hclean⟩
    · show ((s.cacheService.gather m).data c).Keyed
      rw [hdata]
      exact h.stored.keyed c

lemma sound_run {s₀ : State} {actions : List Action} (h : s₀.Started)
    (hall : AllSteps Clustered.step Orderly s₀ actions)
    (hrun : run Clustered.step s₀ actions = some s) (m : UUID) :
    s.settled.Sound m ((images Clustered.step State.operations s₀ actions).foldl Broker.perform
      (s₀.broker m)) := by
  refine simulation_run Broker.perform (fun s b => s.settled.Sound m b)
    (fun _ _ _ _ hsound horderly hstep => hsound.step horderly hstep) ?_ hall hrun
  rw [settled_of_idle h.bus]
  exact h.sound m

end State

open State

variable {s s' s₀ : State}

/-- An orderly cluster looks like one broker, whatever happens in it, when what is under way has been
dealt with. -/
theorem refines_one_node (actions : List Action) (h : s₀.Started)
    (hall : AllSteps step Orderly s₀ actions) (hrun : run step s₀ actions = some s)
    (nodeId : UUID) :
    (∃ rest, (∀ action ∈ rest, Action.OfBus action) ∧ AllSteps step Orderly s rest ∧
      run step s rest = some s.settled) ∧
    s.settled.Shows nodeId ((images step State.operations s₀ actions).foldl Broker.perform
      (s₀.broker nodeId)) :=
  ⟨exists_run_settled s, (sound_run h hall hrun nodeId).shows⟩

/-- A cluster that has nothing stored. -/
def State.initial (isSessionUpgradeQos : Bool) (config : Config) : State :=
  ⟨isSessionUpgradeQos, (Broker.initial config 0).cacheService, [], [], fun _ => ∅, ∅, []⟩

lemma started_initial (isSessionUpgradeQos : Bool) (config : Config) :
    (State.initial isSessionUpgradeQos config).Started := by
  refine ⟨rfl, rfl, rfl, fun _ => rfl, Broker.restarted_initial config 0, fun c session hs => ?_⟩
  cases (PlainMap.get_empty c).symm.trans hs

/-- A takeover from another node, with the kick message and requests that are replied to, and the
loss of a node that a client with a clean session is connected to, with a request that fails. -/
def sampleActions : List Action :=
  [.join 1, .join 2, .connect 1 ['c'] false, .request 1 ['c'] (.subscribeTopic ['t'] 1),
    .connect 2 ['d'] true, .request 2 ['d'] (.subscribeTopic ['t'] 0), .connect 2 ['c'] false,
    .arrive 0, .publish 1 ['t'] sampleMessage .atLeastOnce, .arrive 0, .arrive 0, .arrive 0,
    .arrive 0, .leave 2, .publish 1 ['t'] sampleMessage .atLeastOnce, .fail 0, .lose 0,
    .connect 1 ['c'] false, .lose 0]

theorem refines_one_node_sample : ∃ s,
    run step (State.initial false sampleConfig) sampleActions = some s ∧ s.running = {1} ∧
      s.bus.length = 0 ∧ s.endpoints.map (·.written.length) = [0, 1, 1, 0] ∧
      s.settled.Shows 0 ((images step State.operations (State.initial false sampleConfig)
        sampleActions).foldl Broker.perform ((State.initial false sampleConfig).broker 0)) := by
  have hobs : (run step (State.initial false sampleConfig) sampleActions).map (fun s =>
      (s.running, s.bus.length, s.endpoints.map (·.written.length))) =
        some ({1}, 0, [0, 1, 1, 0]) := by
    decide +kernel
  obtain ⟨s, hrun⟩ : ∃ s, run step (State.initial false sampleConfig) sampleActions = some s :=
    Option.isSome_iff_exists.1 (by decide +kernel)
  rw [hrun] at hobs
  simp only [Option.map_some, Option.some.injEq, Prod.mk.injEq] at hobs
  obtain ⟨hrunning, hbus, hwritten⟩ := hobs
  exact ⟨s, hrun, hrunning, hbus, hwritten, refines_one_node sampleActions
    (started_initial false sampleConfig) (by decide +kernel) hrun 0 |>.2⟩

/-- What a connection does in a cluster, wherever the client was connected before. -/
structure Moves (s s' : State) (nodeId : UUID) (clientId : Str) (cleanSession : Bool) : Prop where
  startsClean : cleanSession = true → (s'.node nodeId).StartsClean clientId
  resumes : cleanSession = false → s.cacheService.isPersistentSession clientId = true →
    (s.node nodeId).Resumes (s'.node nodeId) clientId
  holds : ∃ w, (s'.wrappers nodeId).get clientId = some w ∧ s'.Holds nodeId clientId w
  alone : s'.Alone nodeId clientId
  closed : ∀ nodeId' w, nodeId' ≠ nodeId → (s.wrappers nodeId').get clientId = some w →
    (s'.endpoints[w.endpoint]?).map MqttEndpoint.isConnected = some false

/-- The node sees what its own `handleAccept` has left, whatever the kick does on the old one. -/
lemma State.Sound.seen_connect {m : UUID} {b : Broker} (h : s.Sound m b) (hidle : s.bus = [])
    {clientId : Str} (hv : IdUtil.validateClientId clientId = true) (nodeId : UUID)
    (cleanSession : Bool) :
    ((s.connect nodeId clientId cleanSession).settled.wrappers nodeId).get clientId =
        ((s.node nodeId).handleAccept clientId cleanSession).2.wrappers.get clientId ∧
      ((s.connect nodeId clientId cleanSession).settled.node nodeId).cacheService =
        ((s.node nodeId).handleAccept clientId cleanSession).2.cacheService := by
  have hc := (h.node_inv nodeId).connect hv cleanSession
  have hnode : { ((s.node nodeId).handleAccept clientId cleanSession).2.cacheService with
      thisNodeId := nodeId } =
        ((s.node nodeId).handleAccept clientId cleanSession).2.cacheService := by
    have hthis : ((s.node nodeId).handleAccept clientId cleanSession).2.cacheService.thisNodeId =
        nodeId := hc.sameElse.cache.thisNodeId
    generalize ((s.node nodeId).handleAccept clientId cleanSession).2.cacheService = v at hthis ⊢
    rw [← hthis]
  rcases h.connect_cases hidle hv nodeId cleanSession with ⟨-, heq, -⟩ | ⟨k, w, hne, -, heq, -⟩
  · rw [heq]
    exact ⟨get_opened_self nodeId clientId cleanSession, hnode⟩
  · rw [heq]
    exact ⟨get_takenOver_self hne clientId cleanSession w.endpoint, hnode⟩

/-- The kick closes the connection on the old node. -/
lemma State.Sound.closed_connect {m : UUID} {b : Broker} (h : s.Sound m b) (hidle : s.bus = [])
    {clientId : Str} (hv : IdUtil.validateClientId clientId = true) {nodeId nodeId' : UUID}
    (hne : nodeId' ≠ nodeId) {w : Wrapper} (hold : (s.wrappers nodeId').get clientId = some w)
    (cleanSession : Bool) :
    (((s.connect nodeId clientId cleanSession).settled).endpoints[w.endpoint]?).map
      MqttEndpoint.isConnected = some false := by
  rcases h.connect_cases hidle hv nodeId cleanSession with ⟨halone, -⟩ | ⟨k, w', -, hk, heq, -⟩
  · rw [halone nodeId' hne] at hold
    cases hold
  · obtain rfl := h.placed.unique hk hold
    obtain rfl := Option.some.inj (hk.symm.trans hold)
    rw [heq]
    exact h.closed_takenOver hk nodeId cleanSession

lemma State.Sound.moves {m : UUID} {b : Broker} (h : s.Sound m b) (hidle : s.bus = [])
    {nodeId : UUID} (hrunning : nodeId ∈ s.running) {clientId : Str}
    (hv : IdUtil.validateClientId clientId = true) (cleanSession : Bool) :
    Moves s (s.connect nodeId clientId cleanSession).settled nodeId clientId cleanSession := by
  have hc := (h.node_inv nodeId).connect hv cleanSession
  have hplaced := (h.connect hidle hrunning hv cleanSession).placed
  obtain ⟨hget, hcache⟩ := h.seen_connect hidle hv nodeId cleanSession
  obtain ⟨w, hw, -⟩ := hc.live
  have hlive := hget.trans hw
  refine ⟨?_, ?_, ⟨w, hlive, (hplaced.own clientId).holds nodeId w hlive⟩, hplaced.alone hlive,
    fun nodeId' w' hne hold => h.closed_connect hidle hv hne hold cleanSession⟩
  · rintro rfl
    have hwrapper : ((s.connect nodeId clientId true).settled.node nodeId).getWrapper clientId =
        ((s.node nodeId).handleAccept clientId true).2.getWrapper clientId := by
      rw [Broker.getWrapper_eq hv, Broker.getWrapper_eq hv]
      exact hget
    have hclean := hc.startsClean hv
    simp only [Broker.StartsClean] at hclean ⊢
    rwa [hcache, hwrapper]
  · rintro rfl hpers
    have hresumes := hc.resumes hpers
    simp only [Broker.Resumes] at hresumes ⊢
    rwa [hcache]

/-- Everything of a client is on one node, when nothing is under way. -/
theorem located (actions : List Action) (h : s₀.Started)
    (hall : AllSteps step Orderly s₀ actions) (hrun : run step s₀ actions = some s)
    (hidle : s.bus = []) (clientId : Str) :
    (∀ nodeId nodeId' w w', (s.wrappers nodeId).get clientId = some w →
      (s.wrappers nodeId').get clientId = some w' → nodeId = nodeId') ∧
    (∀ nodeId w, (s.wrappers nodeId).get clientId = some w → s.Holds nodeId clientId w) ∧
    ∀ session, s.cacheService.getSession clientId = some session →
      session.cleanSession = true → (s.wrappers session.nodeId).get clientId ≠ none := by
  have hplaced := (sound_run h hall hrun 0).placed
  rw [settled_of_idle hidle] at hplaced
  refine ⟨fun _ _ _ _ hget hget' => hplaced.unique hget hget', (hplaced.own clientId).holds,
    fun session hs => ?_⟩
  refine (hplaced.own clientId).transient session ?_
  rw [← CacheService.getSession_eq]
  · exact hs
  · by_contra hv
    rw [CacheService.getSession, if_pos (by simpa using hv)] at hs
    cases hs

theorem located_sample : ∃ s w,
    run step (State.initial false sampleConfig) sampleActions = some s ∧
      (s.wrappers 1).get ['c'] = some w ∧ s.Holds 1 ['c'] w := by
  have hobs : (run step (State.initial false sampleConfig) sampleActions).map (fun s =>
      (s.bus.length, ((s.wrappers 1).get ['c']).isSome)) = some (0, true) := by
    decide +kernel
  obtain ⟨s, hrun⟩ : ∃ s, run step (State.initial false sampleConfig) sampleActions = some s :=
    Option.isSome_iff_exists.1 (by decide +kernel)
  rw [hrun] at hobs
  obtain ⟨hbus, hget⟩ := Prod.mk.inj (Option.some.inj hobs)
  obtain ⟨w, hget⟩ := Option.isSome_iff_exists.1 hget
  exact ⟨s, w, hrun, hget, (located sampleActions (started_initial false sampleConfig)
    (by decide +kernel) hrun (length_eq_zero_iff.1 hbus) ['c']).2.1 1 w hget⟩

end Clustered

end Stuart
