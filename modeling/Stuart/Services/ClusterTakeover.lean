/-
The takeover of a session by another node of a cluster.

Every router carries the node of its client, copied from the session record.  `openSession` on the
new node saves the record under the lock, and afterwards tears down what is stored of the client
or moves its routers with `updateRouter`, row by row.  Meanwhile the SUBSCRIBEs of the client save
routers: each of them looks the wrapper up once and then saves with the node it runs on.

A takeover is about one client.  An old connection may end at any time, with or without the kick
message, so the message itself is no step of its own.
-/
import Stuart.Lib.Runs
import Stuart.Caches.ClusteredRoutes
import Stuart.Services.CacheService

namespace Stuart

open List Lib TopicUtil

namespace ClusterTakeover

/-- A CONNECT that a node handles. -/
structure Takeover where
  clientId : Str
  cleanSession : Bool
  /-- `thisNodeId` -/
  nodeId : UUID
  /-- `handleEndpoint` rejects an empty client id -/
  valid : IdUtil.validateClientId clientId = true

/-- What the nodes share, and the registered wrapper of the client on each node. -/
structure Cluster where
  sessionCache : PlainMap Str MqttSession
  routerCache : RouterCache
  wrappers : PlainMap UUID SessionKind

/-- Where `openSession` is. -/
inductive Place where
  /-- next at `getSession` -/
  | reading
  /-- next at the lock and `removeWrapper` -/
  | removing (isPersistent : Bool)
  /-- it holds the lock, next at `saveSession` -/
  | saving (destroy : Bool) (kind : SessionKind)
  /-- next at the teardown -/
  | tearing (destroy : Bool) (kind : SessionKind)
  /-- in the loop of `deleteRouter(clientId)` -/
  | deleting (topics : List Str) (kind : SessionKind)
  /-- next at `open` -/
  | opening (kind : SessionKind)
  /-- in `updateRouter`, over the rows that were selected -/
  | updating (topics : List Str)
  /-- next at `putWrapper` -/
  | registering (kind : SessionKind)
  | finished
deriving DecidableEq

/-- A subscription that was granted. -/
structure Subscription where
  topic : Str
  qos : ℤ
deriving DecidableEq

/-- A SUBSCRIBE task of the client, on a node. -/
inductive Task where
  /-- next at `getWrapper` -/
  | lookingUp (nodeId : UUID) (subs : List Subscription)
  | subscribing (nodeId : UUID) (subs : List Subscription)
deriving DecidableEq

structure State where
  cluster : Cluster
  place : Place
  tasks : List Task

inductive Action where
  /-- the next step of the takeover -/
  | openSession
  /-- `closeSession` for a connection of before, on its node -/
  | closeSession (nodeId : UUID)
  /-- a SUBSCRIBE of the client arrives at a node -/
  | handleSubscribe (nodeId : UUID) (subs : List Subscription)
  /-- the next step of a SUBSCRIBE task -/
  | subscribe (index : ℕ)
  /-- any other access to the routers: an UNSUBSCRIBE of the client, or another client's -/
  | others (op : RouterCache.Op)

namespace Cluster

def saveSession (c : Cluster) (session : MqttSession) : Cluster :=
  { c with sessionCache := c.sessionCache.put session.clientId session }

def deleteSession (c : Cluster) (clientId : Str) : Cluster :=
  { c with sessionCache := c.sessionCache.remove clientId }

def putWrapper (c : Cluster) (nodeId : UUID) (kind : SessionKind) : Cluster :=
  { c with wrappers := c.wrappers.put nodeId kind }

def removeWrapper (c : Cluster) (nodeId : UUID) : Cluster :=
  { c with wrappers := c.wrappers.remove nodeId }

def withRouters (c : Cluster) (routerCache : RouterCache) : Cluster := { c with routerCache }

/-- `closeSession` on a node, for the endpoint of the registered wrapper. -/
def closeSession (c : Cluster) (clientId : Str) (nodeId : UUID) : Cluster :=
  match c.wrappers.get nodeId with
  | none => c
  | some kind =>
      let c := c.removeWrapper nodeId
      match c.sessionCache.get clientId with
      | none => c
      | some session =>
          if kind = .transient ∧ nodeId = session.nodeId then
            (c.withRouters (c.routerCache.deleteClient clientId)).deleteSession clientId
          else c

end Cluster

namespace Takeover

variable (t : Takeover)

/-- The record that `saveSession` of the takeover saves. -/
def session : MqttSession := ⟨t.clientId, t.cleanSession, t.nodeId⟩

/-- Whether the teardown deletes the routers: only a persistent session that goes on keeps
them. -/
def destroys (isPersistent : Bool) : Bool := t.cleanSession || !isPersistent

/-- The kind of the wrapper that is opened; a wrapper that was left on the node is reused for a
persistent session that goes on. -/
def wrapperKind (isPersistent : Bool) (old : Option SessionKind) : SessionKind :=
  if t.cleanSession then .transient
  else
    match old with
    | some kind => if isPersistent then kind else .persistent
    | none => .persistent

/-- The next step of `openSession`. -/
def openSession (s : State) : Option State :=
  match s.place with
  | .reading =>
      some { s with place := .removing (match s.cluster.sessionCache.get t.clientId with
        | none => false
        | some session => !session.cleanSession) }
  | .removing isPersistent =>
      some { s with
        cluster := s.cluster.removeWrapper t.nodeId
        place := .saving (t.destroys isPersistent)
          (t.wrapperKind isPersistent (s.cluster.wrappers.get t.nodeId)) }
  | .saving destroy kind =>
      some { s with cluster := s.cluster.saveSession t.session, place := .tearing destroy kind }
  | .tearing destroy kind =>
      some { s with place :=
        if destroy then .deleting (s.cluster.routerCache.topicsOf t.clientId) kind
        else .opening kind }
  | .deleting (topic :: topics) kind =>
      some { s with
        cluster := s.cluster.withRouters (s.cluster.routerCache.delete t.clientId topic)
        place := .deleting topics kind }
  | .deleting [] kind => some { s with place := .opening kind }
  | .opening .transient => some { s with place := .registering .transient }
  | .opening .persistent =>
      some { s with place := .updating (s.cluster.routerCache.topicsOf t.clientId) }
  | .updating (topic :: topics) =>
      some { s with
        cluster := s.cluster.withRouters
          (s.cluster.routerCache.updateRow t.clientId t.nodeId topic)
        place := .updating topics }
  | .updating [] => some { s with place := .registering .persistent }
  | .registering kind =>
      some { s with cluster := s.cluster.putWrapper t.nodeId kind, place := .finished }
  | .finished => none

/-- The next step of a SUBSCRIBE task; without a wrapper the first subscription throws. -/
def subscribe (c : Cluster) : Task → Option (Cluster × Task)
  | .lookingUp nodeId subs =>
      some (c, .subscribing nodeId (match c.wrappers.get nodeId with
        | none => []
        | some _ => subs))
  | .subscribing nodeId (sub :: subs) =>
      some (c.withRouters (c.routerCache.save ⟨nodeId, t.clientId, sub.topic, sub.qos⟩),
        .subscribing nodeId subs)
  | .subscribing _ [] => none

end Takeover

namespace Place

/-- `openSession` holds the lock of the client. -/
def locked : Place → Bool
  | .saving .. => true
  | _ => false

/-- The record of the takeover was saved. -/
def saved : Place → Bool
  | .reading | .removing _ | .saving .. => false
  | _ => true

end Place

/-- The operation saves a router of the client. -/
def savesOf (clientId : Str) : RouterCache.Op → Bool
  | .save router => decide (router.clientId = clientId)
  | _ => false

def step (t : Takeover) (s : State) : Action → Option State
  | .openSession => t.openSession s
  | .closeSession nodeId =>
      -- it waits for the lock; the wrapper that was on the new node is no longer registered
      if s.place.locked ∨ (s.place.saved ∧ nodeId = t.nodeId) then none
      else some { s with cluster := s.cluster.closeSession t.clientId nodeId }
  | .handleSubscribe nodeId subs => some { s with tasks := s.tasks ++ [.lookingUp nodeId subs] }
  | .subscribe index =>
      (s.tasks[index]?.bind (t.subscribe s.cluster)).map fun result =>
        { s with cluster := result.1, tasks := s.tasks.set index result.2 }
  | .others op =>
      if savesOf t.clientId op then none
      else some { s with cluster := s.cluster.withRouters (s.cluster.routerCache.step op) }

/-- Before the takeover. -/
def start (cluster : Cluster) : State := ⟨cluster, .reading, []⟩

/-- Every router of the client carries the node of the session record, and the wrapper of the
client is registered on that node. -/
def Located (t : Takeover) (c : Cluster) : Prop :=
  ∃ session, c.sessionCache.get t.clientId = some session ∧
    c.wrappers.containsKey session.nodeId = true ∧
    ∀ topic router, c.routerCache.routerOf t.clientId topic = some router →
      router.nodeId = session.nodeId

/-! ### What the takeover still reaches -/

/-- The takeover will still delete a router that is stored for the topic now, or move it. -/
def Place.Covers (topic : Str) : Place → Prop
  | .reading | .removing _ => True
  | .saving destroy kind | .tearing destroy kind => destroy = true ∨ kind = .persistent
  | .deleting topics kind => topic ∈ topics ∨ kind = .persistent
  | .opening kind => kind = .persistent
  | .updating topics => topic ∈ topics
  | .registering _ | .finished => False

instance (topic : Str) : DecidablePred (Place.Covers topic)
  | .reading | .removing _ => inferInstanceAs (Decidable True)
  | .saving _ _ | .tearing _ _ | .deleting _ _ => inferInstanceAs (Decidable (_ ∨ _))
  | .opening kind => inferInstanceAs (Decidable (kind = .persistent))
  | .updating topics => inferInstanceAs (Decidable (topic ∈ topics))
  | .registering _ | .finished => inferInstanceAs (Decidable False)

/-- A task of another node saves next a router that the takeover still reaches. -/
def Task.Early (t : Takeover) (place : Place) : Task → Prop
  | .subscribing nodeId (sub :: _) => nodeId ≠ t.nodeId → place.Covers sub.topic
  | _ => True

instance (t : Takeover) (place : Place) : DecidablePred (Task.Early t place)
  | .subscribing _ (_ :: _) => inferInstanceAs (Decidable (_ → _))
  | .subscribing _ [] | .lookingUp _ _ => inferInstanceAs (Decidable True)

/-- The tasks of the other nodes are early, and the takeover does not go on with a transient
wrapper that was left on the node. -/
def Safe (t : Takeover) (s : State) : Action → Prop
  | .openSession => s.place = .removing true → t.cleanSession = false →
      s.cluster.wrappers.get t.nodeId ≠ some .transient
  | .subscribe index => ∀ task ∈ s.tasks[index]?, task.Early t s.place
  | _ => True

instance (t : Takeover) (s : State) : DecidablePred (Safe t s)
  | .openSession => inferInstanceAs (Decidable (_ → _))
  | .subscribe index => inferInstanceAs (Decidable (∀ task ∈ s.tasks[index]?, _))
  | .closeSession _ | .handleSubscribe _ _ | .others _ => inferInstanceAs (Decidable True)

/-! ### The caches -/

section Caches

variable {c : Cluster} {clientId : Str} {nodeId : UUID}

lemma Cluster.routerCache_closeSession (c : Cluster) (clientId : Str) (nodeId : UUID) :
    (c.closeSession clientId nodeId).routerCache = c.routerCache ∨
      (c.closeSession clientId nodeId).routerCache = c.routerCache.deleteClient clientId := by
  simp only [Cluster.closeSession]
  split
  · exact Or.inl rfl
  · split
    · exact Or.inl rfl
    · split_ifs
      · exact Or.inr rfl
      · exact Or.inl rfl

/-- Only a record of the own node is deleted. -/
lemma Cluster.sessionCache_closeSession
    (hne : ∀ session, c.sessionCache.get clientId = some session → nodeId ≠ session.nodeId) :
    (c.closeSession clientId nodeId).sessionCache = c.sessionCache := by
  simp only [Cluster.closeSession]
  split
  · rfl
  · split
    · rfl
    · rename_i session hsession
      rw [if_neg fun hand => hne session hsession hand.2]
      rfl

lemma Cluster.wrappers_closeSession {nodeId' : UUID} (hne : nodeId' ≠ nodeId) :
    (c.closeSession clientId nodeId).wrappers.get nodeId' = c.wrappers.get nodeId' := by
  have hremove : (c.removeWrapper nodeId).wrappers.get nodeId' = c.wrappers.get nodeId' :=
    PlainMap.get_remove_of_ne _ hne
  simp only [Cluster.closeSession]
  split
  · rfl
  · split
    · exact hremove
    · split_ifs
      · exact hremove
      · exact hremove

variable {s : RouterCache} {op : RouterCache.Op}

lemma consistent_step (h : s.Consistent) (op : RouterCache.Op) : (s.step op).Consistent := by
  cases op with
  | save router => exact h.save router
  | delete c topic => exact h.delete c topic
  | deleteClient c => exact h.deleteClient c

lemma routerOf_of_deleteClient (h : s.Consistent) {c topic : Str} {router : MqttRouter}
    (hget : (s.deleteClient c).routerOf clientId topic = some router) :
    s.routerOf clientId topic = some router := by
  by_cases hv : IdUtil.validateClientId c = true
  · rw [h.routerOf_deleteClient hv] at hget
    split_ifs at hget
    exact hget
  · have hsame : s.deleteClient c = s := if_pos (by simpa using hv)
    rw [hsame] at hget
    exact hget

lemma routerOf_of_delete (h : s.Consistent) {c topic topic' : Str} {router : MqttRouter}
    (hget : (s.delete c topic').routerOf clientId topic = some router) :
    s.routerOf clientId topic = some router ∧ ¬(clientId = c ∧ topic = topic') := by
  rw [h.routerOf_delete] at hget
  split_ifs at hget with hne
  exact ⟨hget, hne⟩

/-- The other accesses make no router of the client. -/
lemma routerOf_of_step (h : s.Consistent) (hop : savesOf clientId op = false) {topic : Str}
    {router : MqttRouter} (hget : (s.step op).routerOf clientId topic = some router) :
    s.routerOf clientId topic = some router := by
  cases op with
  | save other =>
      have hne : other.clientId ≠ clientId := by simpa [savesOf] using hop
      change (s.save other).routerOf clientId topic = some router at hget
      by_cases hv : (!IdUtil.validateClientId other.clientId || !validateTopic other.topic) = true
      · rw [RouterCache.save_of_not_valid hv] at hget
        exact hget
      · simp only [Bool.or_eq_true, Bool.not_eq_true', not_or, Bool.not_eq_false] at hv
        rw [h.routerOf_save other hv.1 hv.2, if_neg fun hand => hne hand.1.symm] at hget
        exact hget
  | delete c topic' => exact (routerOf_of_delete h hget).1
  | deleteClient c => exact routerOf_of_deleteClient h hget

end Caches

/-! ### The invariant -/

/-- Every router of the client has the new node, or the takeover still reaches it; and what the
takeover has stored of the client stays. -/
structure Inv (t : Takeover) (s : State) : Prop where
  routers : s.cluster.routerCache.Consistent
  located : ∀ topic router, s.cluster.routerCache.routerOf t.clientId topic = some router →
    router.nodeId = t.nodeId ∨ s.place.Covers topic
  session : s.place.saved = true → s.cluster.sessionCache.get t.clientId = some t.session
  wrapper : s.place = .finished → ∃ kind, s.cluster.wrappers.get t.nodeId = some kind

variable {t : Takeover} {s s' : State}

lemma inv_start {cluster : Cluster} (h : cluster.routerCache.Consistent) :
    Inv t (start cluster) where
  routers := h
  located := fun _ _ _ => Or.inr trivial
  session := fun hsaved => by cases hsaved
  wrapper := fun hplace => by cases hplace

/-- The takeover goes on, and still reaches what it has to. -/
lemma Inv.move (h : Inv t s) {place : Place} (hsaved : place.saved = true → s.place.saved = true)
    (hcovers : ∀ topic router, s.cluster.routerCache.routerOf t.clientId topic = some router →
      s.place.Covers topic → place.Covers topic) (hplace : place ≠ .finished) :
    Inv t { s with place } where
  routers := h.routers
  located := fun topic router hget =>
    (h.located topic router hget).imp_right (hcovers topic router hget)
  session := fun hsave => h.session (hsaved hsave)
  wrapper := fun heq => absurd heq hplace

/-- The takeover goes on with other routers: each is one of before that it still reaches if it did,
or has the new node. -/
lemma Inv.reroute (h : Inv t s) {routerCache : RouterCache} {place : Place}
    (hconsistent : routerCache.Consistent) (hsaved : s.place.saved = true)
    (hplace : place ≠ .finished)
    (hrouters : ∀ topic router, routerCache.routerOf t.clientId topic = some router →
      router.nodeId = t.nodeId ∨ s.cluster.routerCache.routerOf t.clientId topic = some router ∧
        (s.place.Covers topic → place.Covers topic)) :
    Inv t { s with cluster := s.cluster.withRouters routerCache, place } where
  routers := hconsistent
  located := by
    intro topic router hget
    rcases hrouters topic router hget with hnode | ⟨hold, hcovers⟩
    · exact Or.inl hnode
    · exact (h.located topic router hold).imp_right hcovers
  session := fun _ => h.session hsaved
  wrapper := fun heq => absurd heq hplace

/-- The wrapper that is opened moves the routers, unless the teardown has deleted them. -/
lemma covers_removing (t : Takeover) (isPersistent : Bool) (old : Option SessionKind)
    (hsafe : isPersistent = true → t.cleanSession = false → old ≠ some .transient) :
    t.destroys isPersistent = true ∨ t.wrapperKind isPersistent old = .persistent := by
  simp only [Takeover.destroys, Takeover.wrapperKind]
  cases hclean : t.cleanSession with
  | true => exact Or.inl rfl
  | false =>
      cases isPersistent with
      | false => exact Or.inl rfl
      | true =>
          refine Or.inr ?_
          have hold := hsafe rfl hclean
          cases old with
          | none => rfl
          | some kind =>
              cases kind with
              | transient => exact absurd rfl hold
              | persistent => rfl

lemma Inv.openSession (h : Inv t s) (hsafe : Safe t s .openSession)
    (hstep : t.openSession s = some s') : Inv t s' := by
  simp only [Takeover.openSession] at hstep
  cases hplace : s.place with
  | reading =>
      rw [hplace] at hstep
      obtain rfl := Option.some.inj hstep
      exact h.move (fun hsaved => by cases hsaved) (fun _ _ _ _ => trivial) (by simp)
  | removing isPersistent =>
      rw [hplace] at hstep
      obtain rfl := Option.some.inj hstep
      have hcovers := covers_removing t isPersistent (s.cluster.wrappers.get t.nodeId)
        fun hp => hsafe (by rw [hplace, hp])
      refine ⟨h.routers, fun topic router hget => Or.inr hcovers, ?_, ?_⟩
      · intro hsaved
        cases hsaved
      · intro heq
        cases heq
  | saving destroy kind =>
      rw [hplace] at hstep
      obtain rfl := Option.some.inj hstep
      refine ⟨h.routers, ?_, fun _ => PlainMap.get_put_self _ _ _, fun heq => by cases heq⟩
      intro topic router hget
      have hlocated := h.located topic router hget
      rw [hplace] at hlocated
      exact hlocated
  | tearing destroy kind =>
      rw [hplace] at hstep
      obtain rfl := Option.some.inj hstep
      cases destroy with
      | true =>
          refine h.move (fun _ => by rw [hplace]; rfl) (fun topic router hget _ => Or.inl ?_)
            (by simp)
          exact RouterCache.mem_topicsOf h.routers hget
      | false =>
          refine h.move (fun _ => by rw [hplace]; rfl) (fun topic router hget hcovers => ?_)
            (by simp)
          rw [hplace] at hcovers
          exact hcovers.resolve_left (by simp)
  | deleting topics kind =>
      rw [hplace] at hstep
      have hsaved : s.place.saved = true := by
        rw [hplace]
        rfl
      cases topics with
      | nil =>
          obtain rfl := Option.some.inj hstep
          refine h.move (fun _ => hsaved) (fun topic router hget hcovers => ?_) (by simp)
          rw [hplace] at hcovers
          exact hcovers.resolve_left not_mem_nil
      | cons topic topics =>
          obtain rfl := Option.some.inj hstep
          refine h.reroute (h.routers.delete _ _) hsaved (by simp) fun topic' router hget => ?_
          obtain ⟨hold, hne⟩ := routerOf_of_delete h.routers hget
          refine Or.inr ⟨hold, fun hcovers => ?_⟩
          rw [hplace] at hcovers
          rcases hcovers with hmem | hkind
          · exact Or.inl ((mem_cons.1 hmem).resolve_left fun heq => hne ⟨rfl, heq⟩)
          · exact Or.inr hkind
  | opening kind =>
      rw [hplace] at hstep
      have hsaved : s.place.saved = true := by
        rw [hplace]
        rfl
      cases kind with
      | transient =>
          obtain rfl := Option.some.inj hstep
          refine h.move (fun _ => hsaved) (fun topic router hget hcovers => ?_) (by simp)
          rw [hplace] at hcovers
          cases hcovers
      | persistent =>
          obtain rfl := Option.some.inj hstep
          refine h.move (fun _ => hsaved) (fun topic router hget _ => ?_) (by simp)
          exact RouterCache.mem_topicsOf h.routers hget
  | updating topics =>
      rw [hplace] at hstep
      have hsaved : s.place.saved = true := by
        rw [hplace]
        rfl
      cases topics with
      | nil =>
          obtain rfl := Option.some.inj hstep
          refine h.move (fun _ => hsaved) (fun topic router hget hcovers => ?_) (by simp)
          rw [hplace] at hcovers
          exact absurd hcovers not_mem_nil
      | cons topic topics =>
          obtain rfl := Option.some.inj hstep
          refine h.reroute (h.routers.updateRow _ _ _) hsaved (by simp)
            fun topic' router hget => ?_
          rw [RouterCache.routerOf_updateRow] at hget
          split_ifs at hget with heq
          · obtain ⟨old, -, rfl⟩ := Option.map_eq_some_iff.1 hget
            exact Or.inl rfl
          · refine Or.inr ⟨hget, fun hcovers => ?_⟩
            rw [hplace] at hcovers
            exact (mem_cons.1 hcovers).resolve_left fun htopic => heq ⟨rfl, htopic⟩
  | registering kind =>
      rw [hplace] at hstep
      obtain rfl := Option.some.inj hstep
      refine ⟨h.routers, fun topic router hget => ?_, fun _ => h.session (by rw [hplace]; rfl),
        fun _ => ⟨kind, PlainMap.get_put_self _ _ _⟩⟩
      have hlocated := h.located topic router hget
      rw [hplace] at hlocated
      exact hlocated
  | finished =>
      rw [hplace] at hstep
      cases hstep

/-- A SUBSCRIBE task changes nothing but the routers. -/
lemma Inv.subscribe (h : Inv t s) {task task' : Task} {c : Cluster} {tasks : List Task}
    (hearly : task.Early t s.place) (hstep : t.subscribe s.cluster task = some (c, task')) :
    Inv t { s with cluster := c, tasks } := by
  cases task with
  | lookingUp nodeId subs =>
      obtain ⟨rfl, -⟩ := Prod.mk.inj (Option.some.inj hstep)
      exact ⟨h.routers, h.located, h.session, h.wrapper⟩
  | subscribing nodeId subs =>
      cases subs with
      | nil => cases hstep
      | cons sub subs =>
          obtain ⟨rfl, -⟩ := Prod.mk.inj (Option.some.inj hstep)
          refine ⟨h.routers.save _, fun topic router hget => ?_, h.session, h.wrapper⟩
          change (s.cluster.routerCache.save _).routerOf _ _ = _ at hget
          by_cases hv : validateTopic sub.topic = true
          · rw [h.routers.routerOf_save _ t.valid hv] at hget
            split_ifs at hget with heq
            · obtain rfl := Option.some.inj hget
              rw [heq.2]
              by_cases hnode : nodeId = t.nodeId
              · exact Or.inl hnode
              · exact Or.inr (hearly hnode)
            · exact h.located topic router hget
          · rw [RouterCache.save_of_not_valid (by simp [hv])] at hget
            exact h.located topic router hget

lemma Inv.closeSession (h : Inv t s) {nodeId : UUID}
    (hopen : s.place.saved = true → nodeId ≠ t.nodeId) :
    Inv t { s with cluster := s.cluster.closeSession t.clientId nodeId } := by
  refine ⟨?_, fun topic router hget => h.located topic router ?_, fun hsaved => ?_,
    fun hplace => ?_⟩
  · rcases s.cluster.routerCache_closeSession t.clientId nodeId with heq | heq
    · rw [heq]
      exact h.routers
    · rw [heq]
      exact h.routers.deleteClient _
  · rcases s.cluster.routerCache_closeSession t.clientId nodeId with heq | heq
    · rw [← heq]
      exact hget
    · rw [heq] at hget
      exact routerOf_of_deleteClient h.routers hget
  · rw [Cluster.sessionCache_closeSession]
    · exact h.session hsaved
    · intro session hsession
      obtain rfl := Option.some.inj ((h.session hsaved).symm.trans hsession)
      exact hopen hsaved
  · rw [Cluster.wrappers_closeSession]
    · exact h.wrapper hplace
    · have hsaved : s.place.saved = true := by
        have hplace : s.place = .finished := hplace
        rw [hplace]
        rfl
      exact (hopen hsaved).symm

lemma Inv.step (h : Inv t s) {action : Action} (hsafe : Safe t s action)
    (hstep : step t s action = some s') : Inv t s' := by
  cases action with
  | openSession => exact h.openSession hsafe hstep
  | closeSession nodeId =>
      simp only [ClusterTakeover.step] at hstep
      split_ifs at hstep with hwait
      obtain rfl := Option.some.inj hstep
      exact h.closeSession fun hsaved heq => hwait (Or.inr ⟨hsaved, heq⟩)
  | handleSubscribe nodeId subs =>
      obtain rfl := Option.some.inj hstep
      exact ⟨h.routers, h.located, h.session, h.wrapper⟩
  | subscribe index =>
      obtain ⟨⟨c, task'⟩, hbind, rfl⟩ := Option.map_eq_some_iff.1 hstep
      obtain ⟨task, htask, htaken⟩ := Option.bind_eq_some_iff.1 hbind
      exact h.subscribe (hsafe task htask) htaken
  | others op =>
      simp only [ClusterTakeover.step] at hstep
      split_ifs at hstep with hop
      obtain rfl := Option.some.inj hstep
      refine ⟨consistent_step h.routers op, fun topic router hget => ?_, h.session, h.wrapper⟩
      exact h.located topic router (routerOf_of_step h.routers (by simpa using hop) hget)

lemma Inv.toLocated (h : Inv t s) (hplace : s.place = .finished) : Located t s.cluster := by
  refine ⟨t.session, h.session (by rw [hplace]; rfl), ?_, fun topic router hget => ?_⟩
  · obtain ⟨kind, hkind⟩ := h.wrapper hplace
    refine (PlainMap.containsKey_iff _ _).2 fun hnone => ?_
    cases hnone.symm.trans hkind
  · have hlocated := h.located topic router hget
    rw [hplace] at hlocated
    exact hlocated.resolve_right id

/-! ### Results -/

/-- **The routers follow a takeover.**  If the SUBSCRIBE tasks of the other nodes save only routers
that the takeover still reaches, and it does not go on with a transient wrapper, then from its end
on every router of the client carries the node of the session record, where the wrapper of the
client is registered, and so does every clustered route of the client. -/
theorem located_run (t : Takeover) (cluster : Cluster) (hrouters : cluster.routerCache.Consistent)
    (actions : List Action) (s : State)
    (hsafe : AllSteps (step t) (Safe t) (start cluster) actions)
    (hrun : run (step t) (start cluster) actions = some s) (hplace : s.place = .finished) :
    Located t s.cluster ∧ ∀ upgradeQos topic qos,
      ∀ route ∈ s.cluster.routerCache.getClusteredRoutes upgradeQos topic qos,
        route.clientId = t.clientId →
          route.nodeId = (s.cluster.sessionCache.get t.clientId).map MqttSession.nodeId := by
  have h := invariant_run (fun _ _ _ _ hI hP hs => Inv.step hI hP hs) (inv_start hrouters)
    hsafe hrun
  refine ⟨h.toLocated hplace, fun upgradeQos topic qos route hroute hclient => ?_⟩
  obtain ⟨session, hsession, -, hrouter⟩ := h.toLocated hplace
  obtain ⟨filter, router, hget, hnode⟩ := h.routers.exists_of_mem_getClusteredRoutes hroute
  rw [hclient] at hget
  rw [hnode, hrouter filter router hget, hsession]
  rfl

/-- The client connects to node 2. -/
def sampleTakeover : Takeover := ⟨['c'], false, 2, rfl⟩

/-- It has a persistent session on node 1. -/
def sampleCluster : Cluster where
  sessionCache := (∅ : PlainMap Str MqttSession).put ['c'] ⟨['c'], false, 1⟩
  routerCache := .empty
  wrappers := (∅ : PlainMap UUID SessionKind).put 1 .persistent

/-- A SUBSCRIBE on node 1 saves its router before the takeover selects the rows. -/
def earlyActions : List Action :=
  [.handleSubscribe 1 [⟨['t'], 1⟩], .subscribe 0, .openSession, .openSession, .openSession,
    .subscribe 0, .closeSession 1, .openSession, .openSession, .openSession, .openSession,
    .openSession]

def earlyState : State :=
  (run (step sampleTakeover) (start sampleCluster) earlyActions).get (by decide)

theorem located_run_early : Located sampleTakeover earlyState.cluster ∧ ∀ upgradeQos topic qos,
    ∀ route ∈ earlyState.cluster.routerCache.getClusteredRoutes upgradeQos topic qos,
      route.clientId = sampleTakeover.clientId → route.nodeId =
        (earlyState.cluster.sessionCache.get sampleTakeover.clientId).map MqttSession.nodeId :=
  located_run sampleTakeover sampleCluster RouterCache.consistent_empty earlyActions earlyState
    (by decide) (Option.some_get (by decide)).symm (by decide)

/-- A SUBSCRIBE on node 1 has the wrapper before the takeover, and saves its router after it. -/
def lateActions : List Action :=
  [.handleSubscribe 1 [⟨['t'], 1⟩], .subscribe 0, .openSession, .openSession, .openSession,
    .openSession, .openSession, .openSession, .openSession, .closeSession 1, .subscribe 0]

/-- The takeover has finished, no task is left, and the router stays on node 1. -/
theorem not_located_run :
    ¬∀ s, run (step sampleTakeover) (start sampleCluster) lateActions = some s →
      s.place = .finished → s.tasks = [.subscribing 1 []] → Located sampleTakeover s.cluster := by
  intro hall
  have hlate : (run (step sampleTakeover) (start sampleCluster) lateActions).map (fun s =>
      (s.place, s.tasks, (s.cluster.sessionCache.get ['c']).map MqttSession.nodeId,
        (s.cluster.routerCache.routerOf ['c'] ['t']).map MqttRouter.nodeId)) =
      some (.finished, [.subscribing 1 []], some 2, some 1) := by decide
  obtain ⟨s, hrun, hs⟩ := Option.map_eq_some_iff.1 hlate
  obtain ⟨hplace, htasks, hsession, hrouter⟩ : s.place = .finished ∧ s.tasks = [.subscribing 1 []] ∧
      (s.cluster.sessionCache.get ['c']).map MqttSession.nodeId = some 2 ∧
      (s.cluster.routerCache.routerOf ['c'] ['t']).map MqttRouter.nodeId = some 1 := by
    simpa only [Prod.mk.injEq] using hs
  obtain ⟨stored, hstored, -, hlocated⟩ := hall s hrun hplace htasks
  obtain ⟨router, hget, hnode⟩ := Option.map_eq_some_iff.1 hrouter
  have hsame := hlocated ['t'] router hget
  rw [show s.cluster.sessionCache.get ['c'] = some stored from hstored] at hsession
  rw [hnode, Option.some.inj hsession] at hsame
  exact absurd hsame (by decide)

end ClusterTakeover

end Stuart
