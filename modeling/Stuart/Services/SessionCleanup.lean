/-
The cleanup of the transient sessions of a node that left the cluster.

`destroyTransientSessions` asks for the session records of the node and starts one
`DestroySessionClosure` for each of them, on any node and at any time.  In the meantime the clients
connect to other nodes, whose `openSession` saves a new record, and subscribe again.  A closure
tries to take the lock of its client, which `openSession` holds while it saves the record, and goes
on only if the record is the one it was started for.

The closures and the locked sections of `openSession` run one access at a time; a SUBSCRIBE and an
UNSUBSCRIBE are transactions of the router cache, which take no lock.
-/
import Stuart.Lib.Pool
import Stuart.Services.CacheService

namespace Stuart

open List Lib TopicUtil

namespace SessionCleanup

/-- A session record of a cluster. -/
structure Session extends MqttSession where
  createTime : ℤ
deriving DecidableEq

/-- The test of the closure: the record is still the one that was found. -/
def Session.Matches (current session : Session) : Prop :=
  current.nodeId = session.nodeId ∧ current.createTime = session.createTime

instance (current session : Session) : Decidable (current.Matches session) :=
  inferInstanceAs (Decidable (_ ∧ _))

/-- The caches that all nodes of the cluster share, and the locked client ids. -/
structure Cluster where
  sessionCache : PlainMap Str Session
  routerCache : RouterCache
  awaitCache : PlainMap Str (BoundedIgniteMap ℤ MqttAwaitMessage)
  queueCache : PlainMap Str (BoundedQueue MqttMessage)
  inflightCache : PlainMap Str (BoundedIgniteMapUnsafe ℤ MqttMessage)
  locks : List Str

/-- What is stored of one client. -/
structure Data where
  session : Option Session
  routers : Str → Option MqttRouter
  awaits : Option (BoundedIgniteMap ℤ MqttAwaitMessage)
  queue : Option (BoundedQueue MqttMessage)
  inflights : Option (BoundedIgniteMapUnsafe ℤ MqttMessage)

namespace Cluster

def data (s : Cluster) (clientId : Str) : Data where
  session := s.sessionCache.get clientId
  routers := s.routerCache.routerOf clientId
  awaits := s.awaitCache.get clientId
  queue := s.queueCache.get clientId
  inflights := s.inflightCache.get clientId

def getSession (s : Cluster) (clientId : Str) : Option Session :=
  if !IdUtil.validateClientId clientId then none else s.sessionCache.get clientId

def saveSession (s : Cluster) (session : Session) : Cluster :=
  if !IdUtil.validateClientId session.clientId then s
  else { s with sessionCache := s.sessionCache.put session.clientId session }

def deleteSession (s : Cluster) (clientId : Str) : Cluster :=
  if !IdUtil.validateClientId clientId then s
  else { s with sessionCache := s.sessionCache.remove clientId }

/-- `sessionCache.get(nodeId, cleanSession)`; without a node the records of all nodes. -/
def sessionsOf (s : Cluster) (nodeId : Option UUID) (cleanSession : Bool) : List Session :=
  s.sessionCache.values.filter fun session =>
    (nodeId = none ∨ nodeId = some session.nodeId) ∧ session.cleanSession = cleanSession

def saveRouter (s : Cluster) (router : MqttRouter) : Cluster :=
  { s with routerCache := s.routerCache.save router }

def deleteRouter (s : Cluster) (clientId topic : Str) : Cluster :=
  { s with routerCache := s.routerCache.delete clientId topic }

/-- `deleteRouter(clientId)`. -/
def deleteRouters (s : Cluster) (clientId : Str) : Cluster :=
  { s with routerCache := s.routerCache.deleteClient clientId }

/-- `closeAwait`, `closeQueue` and `closeInflight`; nothing here comes in between. -/
def closeStores (s : Cluster) (clientId : Str) : Cluster :=
  { s with
    awaitCache := s.awaitCache.remove clientId
    queueCache := s.queueCache.remove clientId
    inflightCache := s.inflightCache.remove clientId }

def destroyTransientSession (s : Cluster) (clientId : Str) : Cluster := s.deleteRouters clientId

def destroyPersistentSession (s : Cluster) (clientId : Str) : Cluster :=
  (s.deleteRouters clientId).closeStores clientId

def lock (s : Cluster) (clientId : Str) : Cluster := { s with locks := clientId :: s.locks }

def unlock (s : Cluster) (clientId : Str) : Cluster :=
  { s with locks := s.locks.filter (· ≠ clientId) }

/-- What is stored under a client id belongs to the client. -/
structure Sound (s : Cluster) : Prop where
  keyed : ∀ clientId session, s.sessionCache.get clientId = some session →
    session.clientId = clientId ∧ IdUtil.validateClientId clientId = true
  routers : s.routerCache.Consistent

end Cluster

open Cluster

/-- `DestroySessionClosure.apply`. -/
def apply (s : Cluster) (session : Session) : Cluster :=
  if session.clientId ∈ s.locks then s
  else
    match s.getSession session.clientId with
    | some current =>
        if current.Matches session then
          (if session.cleanSession then s.destroyTransientSession session.clientId
            else s.destroyPersistentSession session.clientId).deleteSession session.clientId
        else s
    | none =>
        (if session.cleanSession then s.destroyTransientSession session.clientId
          else s.destroyPersistentSession session.clientId).deleteSession session.clientId

/-! ### Step by step -/

/-- Where a closure is. -/
inductive ApplyPlace where
  | tryLock
  /-- it holds the lock and asks for the current record -/
  | check
  /-- the query of `deleteRouter(clientId)` -/
  | query
  /-- the loop over its rows -/
  | delete (topics : List Str)
  | deleteSession
  | unlock

/-- Where the locked section of `openSession` is. -/
inductive OpenPlace where
  | lock
  | save
  | unlock

inductive Task where
  | apply (session : Session) (place : ApplyPlace)
  | openSession (session : Session) (place : OpenPlace)
  | done

inductive Call where
  | apply (session : Session)
  /-- a CONNECT at the node of the record -/
  | openSession (session : Session)
  | subscribe (router : MqttRouter)
  | unsubscribe (clientId topic : Str)

def start : Call → Cluster → Cluster × Task
  | .apply session, s => (s, .apply session .tryLock)
  | .openSession session, s => (s, .openSession session .lock)
  | .subscribe router, s => (s.saveRouter router, .done)
  | .unsubscribe clientId topic, s => (s.deleteRouter clientId topic, .done)

/-- The next step of a closure. -/
def execApply (s : Cluster) (session : Session) : ApplyPlace → Cluster × Task
  | .tryLock =>
      if session.clientId ∈ s.locks then (s, .done)
      else (s.lock session.clientId, .apply session .check)
  | .check =>
      match s.getSession session.clientId with
      | some current =>
          if current.Matches session then (s, .apply session .query)
          else (s, .apply session .unlock)
      | none => (s, .apply session .query)
  | .query => (s, .apply session (.delete
      (if !IdUtil.validateClientId session.clientId then []
        else s.routerCache.topicsOf session.clientId)))
  | .delete (topic :: topics) =>
      (s.deleteRouter session.clientId topic, .apply session (.delete topics))
  | .delete [] =>
      (if session.cleanSession then s else s.closeStores session.clientId,
        .apply session .deleteSession)
  | .deleteSession => (s.deleteSession session.clientId, .apply session .unlock)
  | .unlock => (s.unlock session.clientId, .done)

/-- The next step of the locked section; it waits for the lock. -/
def execOpen (s : Cluster) (session : Session) : OpenPlace → Cluster × Task
  | .lock =>
      if session.clientId ∈ s.locks then (s, .openSession session .lock)
      else (s.lock session.clientId, .openSession session .save)
  | .save => (s.saveSession session, .openSession session .unlock)
  | .unlock => (s.unlock session.clientId, .done)

def exec (s : Cluster) : Task → Cluster × Task
  | .apply session place => execApply s session place
  | .openSession session place => execOpen s session place
  | .done => (s, .done)

/-- The caches with the calls that are under way. -/
abbrev State := Pool Cluster Task

def step : State → Move Call → Option State := Pool.step start exec

/-! ### The caches -/

namespace Cluster

variable {s : Cluster} {clientId : Str}

lemma Sound.saveSession (h : s.Sound) (session : Session) : (s.saveSession session).Sound := by
  by_cases hv : IdUtil.validateClientId session.clientId = true
  · have hsave : s.saveSession session =
        { s with sessionCache := s.sessionCache.put session.clientId session } :=
      if_neg (by simp [hv])
    rw [hsave]
    refine ⟨fun c stored hget => ?_, h.routers⟩
    rcases PlainMap.eq_or_get_of_get_put _ hget with ⟨rfl, rfl⟩ | hget
    · exact ⟨rfl, hv⟩
    · exact h.keyed c stored hget
  · have hsave : s.saveSession session = s := if_pos (by simpa using hv)
    rw [hsave]
    exact h

lemma Sound.deleteSession (h : s.Sound) (clientId : Str) : (s.deleteSession clientId).Sound := by
  simp only [Cluster.deleteSession]
  split_ifs
  · exact h
  · exact ⟨fun c stored hget => h.keyed c stored (PlainMap.get_of_get_remove _ hget), h.routers⟩

lemma Sound.saveRouter (h : s.Sound) (router : MqttRouter) : (s.saveRouter router).Sound :=
  ⟨h.keyed, h.routers.save router⟩

lemma Sound.deleteRouter (h : s.Sound) (clientId topic : Str) :
    (s.deleteRouter clientId topic).Sound := ⟨h.keyed, h.routers.delete clientId topic⟩

lemma Sound.deleteRouters (h : s.Sound) (clientId : Str) : (s.deleteRouters clientId).Sound :=
  ⟨h.keyed, h.routers.deleteClient clientId⟩

lemma Sound.closeStores (h : s.Sound) (clientId : Str) : (s.closeStores clientId).Sound :=
  ⟨h.keyed, h.routers⟩

lemma getSession_eq (h : s.Sound) (clientId : Str) :
    s.getSession clientId = s.sessionCache.get clientId := by
  simp only [getSession]
  split_ifs with hv
  · cases hget : s.sessionCache.get clientId with
    | none => rfl
    | some session => exact absurd (h.keyed clientId session hget).2 (by simpa using hv)
  · rfl

lemma data_deleteSession (h : s.Sound) (clientId c : Str) :
    (s.deleteSession clientId).data c =
      if c = clientId then { s.data c with session := none } else s.data c := by
  simp only [deleteSession]
  split_ifs with hv hc hc
  · -- nothing is stored under an id that is not valid
    have hnone : s.sessionCache.get c = none := by
      rw [← getSession_eq h, hc]
      exact if_pos hv
    simp only [data, hnone]
  · rfl
  · simp only [data, hc, PlainMap.get_remove_self]
  · simp only [data, PlainMap.get_remove_of_ne _ hc]

lemma data_deleteRouter (h : s.Sound) (clientId topic c : Str) :
    (s.deleteRouter clientId topic).data c = { s.data c with routers := fun topic' =>
      if c = clientId ∧ topic' = topic then none else (s.data c).routers topic' } := by
  have hrouters : (s.routerCache.delete clientId topic).routerOf c = fun topic' =>
      if c = clientId ∧ topic' = topic then none else s.routerCache.routerOf c topic' := by
    funext topic'
    exact h.routers.routerOf_delete clientId topic c topic'
  simp only [deleteRouter, data, hrouters]

lemma data_deleteRouters (h : s.Sound) (clientId c : Str) :
    (s.deleteRouters clientId).data c =
      if c = clientId then { s.data c with routers := fun _ => none } else s.data c := by
  have hrouters : (s.routerCache.deleteClient clientId).routerOf c =
      if c = clientId then fun _ => none else s.routerCache.routerOf c := by
    funext topic
    by_cases hv : IdUtil.validateClientId clientId = true
    · rw [h.routers.routerOf_deleteClient hv]
      split_ifs
      · rfl
      · rfl
    · have hsame : s.routerCache.deleteClient clientId = s.routerCache := if_pos (by simpa using hv)
      rw [hsame]
      split_ifs with hc
      · exact h.routers.routerOf_of_not_valid (by simp [hc, hv])
      · rfl
  simp only [deleteRouters, data, hrouters]
  split_ifs
  · rfl
  · rfl

lemma data_closeStores (clientId c : Str) : (s.closeStores clientId).data c =
    if c = clientId then { s.data c with awaits := none, queue := none, inflights := none }
    else s.data c := by
  simp only [closeStores, data, PlainMap.get_remove]
  split_ifs
  · rfl
  · rfl

lemma data_saveRouter (h : s.Sound) (router : MqttRouter) (c topic : Str) :
    ((s.saveRouter router).data c).session = (s.data c).session ∧
      ((s.saveRouter router).data c).routers topic =
        if c = router.clientId ∧ topic = router.topic ∧
            IdUtil.validateClientId router.clientId = true ∧ validateTopic router.topic = true then
          some router
        else (s.data c).routers topic := by
  refine ⟨rfl, ?_⟩
  show (s.routerCache.save router).routerOf c topic = _
  by_cases hv : IdUtil.validateClientId router.clientId = true ∧ validateTopic router.topic = true
  · rw [h.routers.routerOf_save router hv.1 hv.2]
    simp only [hv, and_true]
    rfl
  · rw [RouterCache.save_of_not_valid]
    · rw [if_neg fun hand => hv hand.2.2]
      rfl
    · simpa only [Bool.or_eq_true, Bool.not_eq_true', not_and_or, Bool.not_eq_true] using hv

end Cluster

variable {s : Cluster} {session : Session} {clientId : Str}

/-- The record of the client is still the one of the closure, or there is none. -/
def Stale (s : Cluster) (session : Session) : Prop :=
  ∀ current, s.sessionCache.get session.clientId = some current → current.Matches session

/-- What the closure does once it has found the record. -/
def destroy (s : Cluster) (session : Session) : Cluster :=
  (if session.cleanSession then s.destroyTransientSession session.clientId
    else s.destroyPersistentSession session.clientId).deleteSession session.clientId

lemma apply_of_stale (h : s.Sound) (hlock : session.clientId ∉ s.locks)
    (hstale : Stale s session) : apply s session = destroy s session := by
  simp only [apply, if_neg hlock, getSession_eq h]
  cases hget : s.sessionCache.get session.clientId with
  | none => rfl
  | some current => exact if_pos (hstale current hget)

lemma apply_of_not_stale (h : s.Sound) (hlive : session.clientId ∈ s.locks ∨ ¬Stale s session) :
    apply s session = s := by
  simp only [apply]
  by_cases hlock : session.clientId ∈ s.locks
  · exact if_pos hlock
  · have hlive := hlive.resolve_left hlock
    rw [if_neg hlock, getSession_eq h]
    cases hget : s.sessionCache.get session.clientId with
    | none => exact absurd (fun current hsome => by rw [hget] at hsome; contradiction) hlive
    | some current =>
        refine if_neg fun hmatch => hlive fun other hother => ?_
        obtain rfl := Option.some.inj (hget.symm.trans hother)
        exact hmatch

lemma data_destroy (h : s.Sound) (hclean : session.cleanSession = true) (c : Str) :
    (destroy s session).data c = if c = session.clientId then
      { s.data c with session := none, routers := fun _ => none } else s.data c := by
  simp only [destroy, hclean, if_true, destroyTransientSession]
  rw [data_deleteSession (h.deleteRouters _), data_deleteRouters h]
  split_ifs
  · rfl
  · rfl

/-! ### A closure on its own -/

/-- The loop of `deleteRouter(clientId)`. -/
lemma leads_delete (session : Session) (topics : List Str) : ∀ s : Cluster,
    Pool.Leads exec (s, .apply session (.delete topics))
      (topics.foldl (fun s topic => s.deleteRouter session.clientId topic) s,
        .apply session (.delete [])) := by
  induction topics with
  | nil => exact fun s => Pool.Leads.refl _
  | cons topic topics ih => exact fun s => Pool.Leads.head (ih _)

lemma deleteRouters_eq (s : Cluster) (clientId : Str) : s.deleteRouters clientId =
    (if !IdUtil.validateClientId clientId then [] else s.routerCache.topicsOf clientId).foldl
      (fun s topic => s.deleteRouter clientId topic) s := by
  have hfold : ∀ (topics : List Str) (s : Cluster),
      topics.foldl (fun s topic => s.deleteRouter clientId topic) s =
        { s with routerCache := (topics.foldl
            (fun r topic => RouterCache.delete r clientId topic) s.routerCache) } := by
    intro topics
    induction topics with
    | nil => exact fun s => rfl
    | cons topic topics ih => exact fun s => ih _
  rw [hfold]
  simp only [deleteRouters, RouterCache.deleteClient]
  split_ifs
  · rfl
  · rfl

lemma unlock_lock (hlock : clientId ∉ s.locks) : (s.lock clientId).unlock clientId = s := by
  have hfilter : (clientId :: s.locks).filter (· ≠ clientId) = s.locks := by
    rw [filter_cons_of_neg (by simp)]
    refine filter_eq_self.2 fun c hc => ?_
    rw [decide_eq_true_eq]
    rintro rfl
    exact hlock hc
  show { s with locks := (clientId :: s.locks).filter (· ≠ clientId) } = s
  rw [hfilter]

lemma leads_destroy (s : Cluster) (session : Session) :
    Pool.Leads exec (s, .apply session .query) (destroy s session, .apply session .unlock) := by
  have hloop := leads_delete session
    (if !IdUtil.validateClientId session.clientId then []
      else s.routerCache.topicsOf session.clientId) s
  rw [← deleteRouters_eq] at hloop
  refine Pool.Leads.head (hloop.trans (Pool.Leads.head (Pool.Leads.head ?_)))
  have hdestroy : destroy s session = Cluster.deleteSession
      (if session.cleanSession then s.deleteRouters session.clientId
        else (s.deleteRouters session.clientId).closeStores session.clientId)
      session.clientId := rfl
  rw [hdestroy]
  exact Pool.Leads.refl _

lemma destroy_lock (s : Cluster) (session : Session) (clientId : Str) :
    destroy (s.lock clientId) session = (destroy s session).lock clientId := by
  simp only [destroy, destroyTransientSession, destroyPersistentSession, Cluster.deleteSession]
  split_ifs
  · rfl
  · rfl
  · rfl
  · rfl

@[simp] lemma destroy_locks (s : Cluster) (session : Session) :
    (destroy s session).locks = s.locks := by
  simp only [destroy, destroyTransientSession, destroyPersistentSession, Cluster.deleteSession]
  split_ifs
  · rfl
  · rfl
  · rfl
  · rfl

/-- The steps of a closure, one after the other, are `apply`. -/
lemma leads_apply (h : s.Sound) (session : Session) :
    Pool.Leads exec (s, .apply session .tryLock) (apply s session, .done) := by
  refine Pool.Leads.head ?_
  by_cases hlock : session.clientId ∈ s.locks
  · rw [apply_of_not_stale h (Or.inl hlock)]
    simp only [exec, execApply, if_pos hlock]
    exact Pool.Leads.refl _
  simp only [exec, execApply, if_neg hlock]
  have hget : (s.lock session.clientId).getSession session.clientId =
      s.sessionCache.get session.clientId := getSession_eq h session.clientId
  by_cases hstale : Stale s session
  · rw [apply_of_stale h hlock hstale]
    have hcheck : exec (s.lock session.clientId) (.apply session .check) =
        (s.lock session.clientId, .apply session .query) := by
      simp only [exec, execApply, hget]
      cases hsome : s.sessionCache.get session.clientId with
      | none => rfl
      | some current => exact if_pos (hstale current hsome)
    refine Pool.Leads.head ?_
    rw [hcheck]
    refine (leads_destroy _ session).trans (Pool.Leads.head ?_)
    rw [destroy_lock]
    simp only [exec, execApply]
    rw [unlock_lock (by rw [destroy_locks]; exact hlock)]
    exact Pool.Leads.refl _
  · rw [apply_of_not_stale h (Or.inr hstale)]
    have hcheck : exec (s.lock session.clientId) (.apply session .check) =
        (s.lock session.clientId, .apply session .unlock) := by
      simp only [exec, execApply, hget]
      cases hsome : s.sessionCache.get session.clientId with
      | none => exact absurd (fun current hc => by rw [hsome] at hc; contradiction) hstale
      | some current =>
          refine if_neg fun hmatch => hstale fun other hother => ?_
          obtain rfl := Option.some.inj (hsome.symm.trans hother)
          exact hmatch
    refine Pool.Leads.head ?_
    rw [hcheck]
    refine Pool.Leads.head ?_
    simp only [exec, execApply]
    rw [unlock_lock hlock]
    exact Pool.Leads.refl _

/-! ### The invariant -/

/-- The closure holds the lock. -/
def ApplyPlace.holds : ApplyPlace → Bool
  | .tryLock => false
  | _ => true

/-- The closure has found its record and takes away what is stored. -/
def ApplyPlace.destroys : ApplyPlace → Bool
  | .query | .delete _ | .deleteSession => true
  | _ => false

/-- The locked section has the lock. -/
def OpenPlace.holds : OpenPlace → Bool
  | .lock => false
  | _ => true

/-- The task holds the lock of the client. -/
def Task.inside (clientId : Str) : Task → Bool
  | .apply session place => decide (session.clientId = clientId) && place.holds
  | .openSession session place => decide (session.clientId = clientId) && place.holds
  | .done => false

/-- The client id is locked. -/
def locked (clientId : Str) (s : Cluster) : Bool := decide (clientId ∈ s.locks)

/-- A closure that takes something away has found its record, and nobody saved another one. -/
def Task.Fits (s : Cluster) : Task → Prop
  | .apply session place => place.destroys = true → Stale s session
  | _ => True

structure Inv (p : State) : Prop where
  sound : p.shared.Sound
  exclusive : ∀ clientId, p.Exclusive (locked clientId) (Task.inside clientId)
  fits : ∀ t ∈ p.tasks, t.Fits p.shared

lemma sound_exec (h : s.Sound) (t : Task) : (exec s t).1.Sound := by
  cases t with
  | apply session place =>
      cases place with
      | tryLock =>
          simp only [exec, execApply]
          split_ifs
          · exact h
          · exact ⟨h.keyed, h.routers⟩
      | check =>
          simp only [exec, execApply]
          split
          · split_ifs
            · exact h
            · exact h
          · exact h
      | query => exact h
      | delete topics =>
          cases topics with
          | nil =>
              simp only [exec, execApply]
              split_ifs
              · exact h
              · exact h.closeStores _
          | cons topic topics => exact h.deleteRouter _ _
      | deleteSession => exact h.deleteSession _
      | unlock => exact ⟨h.keyed, h.routers⟩
  | openSession session place =>
      cases place with
      | lock =>
          simp only [exec, execOpen]
          split_ifs
          · exact h
          · exact ⟨h.keyed, h.routers⟩
      | save => exact h.saveSession _
      | unlock => exact ⟨h.keyed, h.routers⟩
  | done => exact h

/-- A closure that takes nothing away changes nothing that is stored. -/
lemma data_execApply {place : ApplyPlace} (hplace : place.destroys = false) (c : Str) :
    (execApply s session place).1.data c = s.data c := by
  cases place with
  | tryLock =>
      simp only [execApply]
      split_ifs
      · rfl
      · rfl
  | check =>
      simp only [execApply]
      split
      · split_ifs
        · rfl
        · rfl
      · rfl
  | query => exact absurd hplace (by decide)
  | delete topics => exact absurd hplace (by simp [ApplyPlace.destroys])
  | deleteSession => exact absurd hplace (by decide)
  | unlock => rfl

/-- A task changes only what is stored of the client whose lock it holds. -/
lemma data_exec (h : s.Sound) {t : Task} {c : Str} (hout : t.inside c = false) :
    (exec s t).1.data c = s.data c := by
  cases t with
  | apply session place =>
      by_cases hplace : place.destroys = false
      · exact data_execApply hplace c
      -- where it takes something away it holds the lock of its client
      have hne : c ≠ session.clientId := by
        rintro rfl
        cases place with
        | tryLock => exact hplace rfl
        | check => exact hplace rfl
        | query => simp [Task.inside, ApplyPlace.holds] at hout
        | delete topics => simp [Task.inside, ApplyPlace.holds] at hout
        | deleteSession => simp [Task.inside, ApplyPlace.holds] at hout
        | unlock => exact hplace rfl
      cases place with
      | tryLock => exact absurd rfl hplace
      | check => exact absurd rfl hplace
      | query => rfl
      | delete topics =>
          cases topics with
          | nil =>
              simp only [exec, execApply]
              split_ifs
              · rfl
              · rw [data_closeStores, if_neg hne]
          | cons topic topics =>
              show (s.deleteRouter session.clientId topic).data c = s.data c
              rw [data_deleteRouter h]
              simp only [hne, false_and, if_false]
      | deleteSession =>
          show (s.deleteSession session.clientId).data c = s.data c
          rw [data_deleteSession h, if_neg hne]
      | unlock => exact absurd rfl hplace
  | openSession session place =>
      cases place with
      | lock =>
          simp only [exec, execOpen]
          split_ifs
          · rfl
          · rfl
      | save =>
          have hne : c ≠ session.clientId := by
            rintro rfl
            simp [Task.inside, OpenPlace.holds] at hout
          simp only [exec, execOpen, saveSession]
          split_ifs
          · rfl
          · simp only [data, PlainMap.get_put_of_ne _ hne]
      | unlock => rfl
  | done => rfl

/-! ### The locks -/

section Locks

variable {t t' : Task} {client : Str}

/-- The task is at a place of this client, where it holds the lock or does not. -/
def Task.At (t : Task) (client : Str) (holds : Bool) : Prop :=
  ∀ c, t.inside c = (decide (client = c) && holds)

lemma lockStep_take (hfree : client ∉ s.locks) (ht : t.At client false) (ht' : t'.At client true)
    (c : Str) : Pool.LockStep (locked c) (Task.inside c) s t (s.lock client, t') := by
  simp only [Pool.LockStep, ht c, ht' c, locked, lock]
  by_cases hc : client = c
  · subst hc
    simp [hfree]
  · simp [hc, Ne.symm hc]

lemma lockStep_give (ht : t.At client true) (ht' : t'.At client false) (c : Str) :
    Pool.LockStep (locked c) (Task.inside c) s t (s.unlock client, t') := by
  simp only [Pool.LockStep, ht c, ht' c, locked, unlock]
  by_cases hc : client = c
  · subst hc
    simp
  · simp [hc, Ne.symm hc]

lemma lockStep_same {s' : Cluster} {holds : Bool} (hlocks : s'.locks = s.locks)
    (ht : t.At client holds) (ht' : t'.At client holds) (c : Str) :
    Pool.LockStep (locked c) (Task.inside c) s t (s', t') := by
  refine Or.inl ⟨?_, ?_⟩
  · simp only [locked, hlocks]
  · rw [ht c, ht' c]

lemma at_apply (session : Session) (place : ApplyPlace) :
    (Task.apply session place).At session.clientId place.holds := fun _ => rfl

lemma at_openSession (session : Session) (place : OpenPlace) :
    (Task.openSession session place).At session.clientId place.holds := fun _ => rfl

lemma at_done (client : Str) : Task.done.At client false := fun _ => by simp [Task.inside]

lemma deleteSession_locks (s : Cluster) (clientId : Str) :
    (s.deleteSession clientId).locks = s.locks := by
  simp only [Cluster.deleteSession]
  split_ifs
  · rfl
  · rfl

lemma saveSession_locks (s : Cluster) (session : Session) :
    (s.saveSession session).locks = s.locks := by
  simp only [Cluster.saveSession]
  split_ifs
  · rfl
  · rfl

/-- A step takes the lock of its client when it is free, or gives it back, or leaves it. -/
lemma lockStep_exec (s : Cluster) (t : Task) (c : Str) :
    Pool.LockStep (locked c) (Task.inside c) s t (exec s t) := by
  cases t with
  | apply session place =>
      have hat := at_apply session
      cases place with
      | tryLock =>
          simp only [exec, execApply]
          split_ifs with hlock
          · exact lockStep_same rfl (hat _) (at_done _) c
          · exact lockStep_take hlock (hat _) (hat .check) c
      | check =>
          simp only [exec, execApply]
          split
          · split_ifs
            · exact lockStep_same rfl (hat _) (hat .query) c
            · exact lockStep_same rfl (hat _) (hat .unlock) c
          · exact lockStep_same rfl (hat _) (hat .query) c
      | query => exact lockStep_same rfl (hat _) (hat (.delete _)) c
      | delete topics =>
          cases topics with
          | nil =>
              refine lockStep_same ?_ (hat _) (hat .deleteSession) c
              split_ifs
              · rfl
              · rfl
          | cons topic topics => exact lockStep_same rfl (hat _) (hat (.delete topics)) c
      | deleteSession =>
          exact lockStep_same (deleteSession_locks _ _) (hat _) (hat .unlock) c
      | unlock => exact lockStep_give (hat _) (at_done _) c
  | openSession session place =>
      have hat := at_openSession session
      cases place with
      | lock =>
          simp only [exec, execOpen]
          split_ifs with hlock
          · exact lockStep_same rfl (hat _) (hat .lock) c
          · exact lockStep_take hlock (hat _) (hat .save) c
      | save => exact lockStep_same (saveSession_locks _ _) (hat _) (hat .unlock) c
      | unlock => exact lockStep_give (hat _) (at_done _) c
  | done => exact lockStep_same rfl (at_done c) (at_done c) c

end Locks

/-! ### Every step keeps the invariant -/

/-- The session record of a client whose lock the task does not hold stays. -/
lemma get_exec (h : s.Sound) {t : Task} {c : Str} (hout : t.inside c = false) :
    (exec s t).1.sessionCache.get c = s.sessionCache.get c :=
  congrArg Data.session (data_exec h hout)

lemma fits_exec (h : s.Sound) {t : Task} (ht : t.Fits s) : (exec s t).2.Fits (exec s t).1 := by
  cases t with
  | apply session place =>
      cases place with
      | tryLock =>
          simp only [exec, execApply]
          split_ifs
          · trivial
          · exact fun hplace => absurd hplace (by decide)
      | check =>
          simp only [exec, execApply, getSession_eq h]
          cases hget : s.sessionCache.get session.clientId with
          | none =>
              intro _ current hsome
              rw [hget] at hsome
              contradiction
          | some current =>
              dsimp only
              split_ifs with hmatch
              · intro _ other hother
                obtain rfl := Option.some.inj (hget.symm.trans hother)
                exact hmatch
              · exact fun hplace => absurd hplace (by decide)
      | query => exact fun _ => ht rfl
      | delete topics =>
          cases topics with
          | nil =>
              simp only [exec, execApply]
              split_ifs
              · exact fun _ => ht rfl
              · exact fun _ => ht rfl
          | cons topic topics => exact fun _ => ht rfl
      | deleteSession => exact fun hplace => absurd hplace (by decide)
      | unlock => trivial
  | openSession session place =>
      cases place with
      | lock =>
          simp only [exec, execOpen]
          split_ifs
          · trivial
          · trivial
      | save => trivial
      | unlock => trivial
  | done => trivial

/-- What another task has found is still there after a step outside its lock. -/
lemma Task.Fits.other (h : s.Sound) {t u : Task} (hu : u.Fits s)
    (hout : ∀ c, t.inside c = true → u.inside c = false) : u.Fits (exec s t).1 := by
  cases u with
  | apply session place =>
      intro hplace current hget
      have hinside : (Task.apply session place).inside session.clientId = true := by
        cases place <;> simp_all [Task.inside, ApplyPlace.holds, ApplyPlace.destroys]
      have hfree : t.inside session.clientId = false := by
        by_contra hin
        rw [hout _ (by simpa using hin)] at hinside
        contradiction
      rw [get_exec h hfree] at hget
      exact hu hplace current hget
  | openSession session place => trivial
  | done => trivial

variable {p p' : State}

lemma Inv.call (h : Inv p) (c : Call) :
    Inv ⟨(start c p.shared).1, p.tasks ++ [(start c p.shared).2]⟩ := by
  have hstart : (start c p.shared).1.Sound ∧ (start c p.shared).1.locks = p.shared.locks ∧
      (start c p.shared).1.sessionCache = p.shared.sessionCache := by
    cases c with
    | apply session => exact ⟨h.sound, rfl, rfl⟩
    | openSession session => exact ⟨h.sound, rfl, rfl⟩
    | subscribe router => exact ⟨h.sound.saveRouter router, rfl, rfl⟩
    | unsubscribe clientId topic => exact ⟨h.sound.deleteRouter clientId topic, rfl, rfl⟩
  have htask : (∀ clientId, (start c p.shared).2.inside clientId = false) ∧
      (start c p.shared).2.Fits (start c p.shared).1 := by
    cases c with
    | apply session =>
        exact ⟨fun clientId => by simp [start, Task.inside, ApplyPlace.holds],
          fun hplace => absurd hplace (by decide)⟩
    | openSession session =>
        exact ⟨fun clientId => by simp [start, Task.inside, OpenPlace.holds], trivial⟩
    | subscribe router => exact ⟨fun _ => rfl, trivial⟩
    | unsubscribe clientId topic => exact ⟨fun _ => rfl, trivial⟩
  obtain ⟨hsound, hlocks, hcache⟩ := hstart
  refine ⟨hsound, fun clientId => ?_, ?_⟩
  · refine Pool.Exclusive.append (h.exclusive clientId) ?_ (htask.1 clientId)
    simp only [locked, hlocks]
  · intro u hu
    rcases mem_append.1 hu with hu | hu
    · have hfits := h.fits u hu
      cases u with
      | apply session place =>
          intro hplace current hget
          exact hfits hplace current (hcache ▸ hget)
      | openSession session place => trivial
      | done => trivial
    · rw [mem_singleton.1 hu]
      exact htask.2

lemma Inv.run (h : Inv p) {i : ℕ} {t : Task} (ht : p.tasks[i]? = some t) :
    Inv ⟨(exec p.shared t).1, p.tasks.set i (exec p.shared t).2⟩ := by
  refine ⟨sound_exec h.sound t, fun clientId => ?_, ?_⟩
  · exact (h.exclusive clientId).set ht (lockStep_exec p.shared t clientId)
  · intro u hu
    obtain ⟨j, hj⟩ := mem_iff_getElem?.1 hu
    rw [getElem?_set_of_some ht] at hj
    split_ifs at hj with hji
    · obtain rfl := Option.some.inj hj
      exact fits_exec h.sound (h.fits t (mem_of_getElem? ht))
    · refine (h.fits u (mem_of_getElem? hj)).other h.sound fun c hin => ?_
      exact (h.exclusive c).other ht hj (Ne.symm hji) hin

lemma Inv.step (h : Inv p) {move : Move Call} (hstep : step p move = some p') : Inv p' := by
  cases move with
  | call c =>
      obtain rfl := Option.some.inj hstep
      exact h.call c
  | run i =>
      obtain ⟨t, ht, rfl⟩ := Pool.step_run hstep
      exact h.run ht

lemma inv_run {s₀ : Cluster} (h : s₀.Sound) (hlocks : s₀.locks = []) {moves : List (Move Call)}
    (hrun : run step ⟨s₀, []⟩ moves = some p) : Inv p := by
  have hinit : Inv ⟨s₀, []⟩ := by
    refine ⟨h, fun clientId => ?_, fun t ht => absurd ht not_mem_nil⟩
    simp [Pool.Exclusive, locked, hlocks]
  exact invariant_run (P := fun _ _ => True) (fun _ _ _ _ hinv _ hstep => hinv.step hstep) hinit
    (allSteps_true _ _) hrun

/-! ### What the closures leave alone -/

/-- No closure that was begun was started for this record. -/
def Spared (session : Session) (p : State) : Prop :=
  ∀ snapshot place, Task.apply snapshot place ∈ p.tasks → snapshot.clientId = session.clientId →
    ¬session.Matches snapshot

/-- The move saves a record of the client. -/
def Saves (clientId : Str) (p : State) : Move Call → Prop
  | .call _ => False
  | .run i => ∃ session, p.tasks[i]? = some (.openSession session .save) ∧
      session.clientId = clientId

/-- The stored router after a move, as far as the client itself is concerned. -/
def routerAfter (clientId topic : Str) (old : Option MqttRouter) : Move Call → Option MqttRouter
  | .call (.subscribe router) =>
      if router.clientId = clientId ∧ router.topic = topic ∧
        IdUtil.validateClientId clientId = true ∧ validateTopic topic = true then some router
      else old
  | .call (.unsubscribe clientId' topic') =>
      if clientId' = clientId ∧ topic' = topic then none else old
  | _ => old

/-- A step of a closure leaves the other clients alone, and also its own client if the record is
not the one it was started for. -/
def StepSafe (s : Cluster) (session : Session) (place : ApplyPlace) : Prop :=
  ∀ c, (c ≠ session.clientId ∨ ∃ current, s.sessionCache.get session.clientId = some current ∧
    ¬current.Matches session) → (execApply s session place).1.data c = s.data c

lemma Inv.stepSafe (h : Inv p) {session : Session} {place : ApplyPlace}
    (hmem : Task.apply session place ∈ p.tasks) : StepSafe p.shared session place := by
  rintro c (hc | ⟨current, hget, hne⟩)
  · refine data_exec (t := .apply session place) h.sound ?_
    simp [Task.inside, Ne.symm hc]
  · refine data_execApply ?_ c
    by_contra hplace
    exact hne (h.fits _ hmem (by simpa using hplace) current hget)

/-- A closure stays the closure of its record. -/
lemma exec_eq_apply {t : Task} {snapshot : Session} {place : ApplyPlace}
    (h : (exec s t).2 = .apply snapshot place) : ∃ place', t = .apply snapshot place' := by
  cases t with
  | apply session place' =>
      refine ⟨place', ?_⟩
      cases place' with
      | tryLock =>
          simp only [exec, execApply] at h
          split_ifs at h
          · cases h
            rfl
      | check =>
          simp only [exec, execApply] at h
          split at h
          · split_ifs at h
            · cases h
              rfl
            · cases h
              rfl
          · cases h
            rfl
      | query =>
          cases h
          rfl
      | delete topics =>
          cases topics with
          | nil =>
              cases h
              rfl
          | cons topic topics =>
              cases h
              rfl
      | deleteSession =>
          cases h
          rfl
      | unlock => cases h
  | openSession session place' =>
      cases place' with
      | lock =>
          simp only [exec, execOpen] at h
          split_ifs at h
      | save => cases h
      | unlock => cases h
  | done => cases h

/-- What is stored of a client whose record is no closure's stays, unless it is saved anew. -/
lemma Spared.data_exec (hinv : Inv p) {session : Session} (h : Spared session p)
    (hget : p.shared.sessionCache.get session.clientId = some session) {i : ℕ} {t : Task}
    (ht : p.tasks[i]? = some t) (hmove : ¬Saves session.clientId p (.run i)) :
    (exec p.shared t).1.data session.clientId = p.shared.data session.clientId := by
  by_cases hout : t.inside session.clientId = false
  · exact SessionCleanup.data_exec hinv.sound hout
  cases t with
  | apply snapshot place =>
      have hclient : snapshot.clientId = session.clientId := by
        by_contra hne
        exact hout (by simp [Task.inside, hne])
      have hne := h snapshot place (mem_of_getElem? ht) hclient
      exact hinv.stepSafe (mem_of_getElem? ht) _ (Or.inr ⟨session, hclient ▸ hget, hne⟩)
  | openSession other place =>
      have hclient : other.clientId = session.clientId := by
        by_contra hne
        exact hout (by simp [Task.inside, hne])
      cases place with
      | lock => exact absurd (by simp [Task.inside, OpenPlace.holds]) hout
      | save => exact absurd ⟨other, ht, hclient⟩ hmove
      | unlock => rfl
  | done => rfl

lemma Spared.step (hinv : Inv p) {session : Session} (h : Spared session p)
    (hget : p.shared.sessionCache.get session.clientId = some session) {move : Move Call}
    (hcall : ∀ snapshot, move = .call (.apply snapshot) → snapshot.clientId = session.clientId →
      ¬session.Matches snapshot) (hmove : ¬Saves session.clientId p move)
    (hstep : step p move = some p') :
    Spared session p' ∧ p'.shared.sessionCache.get session.clientId = some session ∧
      ∀ topic, p'.shared.routerCache.routerOf session.clientId topic = routerAfter
        session.clientId topic (p.shared.routerCache.routerOf session.clientId topic) move := by
  cases move with
  | call c =>
      obtain rfl := Option.some.inj hstep
      have hspared : ∀ t, (start c p.shared).2 = t → ∀ snapshot place,
          t = .apply snapshot place → snapshot.clientId = session.clientId →
            ¬session.Matches snapshot := by
        rintro t rfl snapshot place htask
        cases c with
        | apply snapshot' =>
            cases htask
            exact hcall snapshot rfl
        | openSession session => cases htask
        | subscribe router => cases htask
        | unsubscribe clientId topic => cases htask
      refine ⟨fun snapshot place hmem => ?_, ?_, fun topic => ?_⟩
      · rcases mem_append.1 hmem with hmem | hmem
        · exact h snapshot place hmem
        · exact hspared _ rfl snapshot place (mem_singleton.1 hmem).symm
      · cases c with
        | apply snapshot => exact hget
        | openSession other => exact hget
        | subscribe router => exact hget
        | unsubscribe clientId topic => exact hget
      · cases c with
        | apply snapshot => rfl
        | openSession other => rfl
        | subscribe router =>
            have hsave := (data_saveRouter hinv.sound router session.clientId topic).2
            refine hsave.trans (if_congr ?_ rfl rfl)
            constructor
            · rintro ⟨hc, ht, hvc, hvt⟩
              exact ⟨hc.symm, ht.symm, hc ▸ hvc, ht ▸ hvt⟩
            · rintro ⟨hc, ht, hvc, hvt⟩
              exact ⟨hc.symm, ht.symm, hc ▸ hvc, ht ▸ hvt⟩
        | unsubscribe clientId topic' =>
            refine (hinv.sound.routers.routerOf_delete clientId topic' _ topic).trans ?_
            exact if_congr (and_congr eq_comm eq_comm) rfl rfl
  | run i =>
      obtain ⟨t, ht, rfl⟩ := Pool.step_run hstep
      have hdata := h.data_exec hinv hget ht hmove
      refine ⟨fun snapshot place hmem => ?_, ?_, fun topic => ?_⟩
      · obtain ⟨j, hj⟩ := mem_iff_getElem?.1 hmem
        rw [getElem?_set_of_some ht] at hj
        split_ifs at hj
        · obtain ⟨place', rfl⟩ := exec_eq_apply (Option.some.inj hj)
          exact h snapshot place' (mem_of_getElem? ht)
        · exact h snapshot place (mem_of_getElem? hj)
      · exact (congrArg Data.session hdata).trans hget
      · exact congrFun (congrArg Data.routers hdata) topic

/-- As long as no record of the client is saved, its record stays, and its routers are what its
own packets make of them. -/
lemma Spared.run (hinv : Inv p) {session : Session} (h : Spared session p)
    (hget : p.shared.sessionCache.get session.clientId = some session) {moves : List (Move Call)}
    (hcall : ∀ snapshot, .call (.apply snapshot) ∈ moves → snapshot.clientId = session.clientId →
      ¬session.Matches snapshot)
    (hmoves : AllSteps SessionCleanup.step (fun p move => ¬Saves session.clientId p move) p moves)
    (hrun : Lib.run SessionCleanup.step p moves = some p') :
    p'.shared.sessionCache.get session.clientId = some session ∧
      ∀ topic, p'.shared.routerCache.routerOf session.clientId topic = moves.foldl
        (routerAfter session.clientId topic)
        (p.shared.routerCache.routerOf session.clientId topic) := by
  induction moves generalizing p with
  | nil =>
      obtain rfl := Option.some.inj hrun
      exact ⟨hget, fun topic => rfl⟩
  | cons move moves ih =>
      rw [run_cons, Option.bind_eq_some_iff] at hrun
      obtain ⟨r, hstep, hrun⟩ := hrun
      obtain ⟨hspared, hget', hrouters⟩ := h.step hinv hget
        (fun snapshot heq => hcall snapshot (heq ▸ mem_cons_self)) hmoves.1 hstep
      obtain ⟨hsession, hall⟩ := ih (hinv.step hstep) hspared hget'
        (fun snapshot hmem => hcall snapshot (mem_cons_of_mem _ hmem)) (hmoves.2 r hstep) hrun
      refine ⟨hsession, fun topic => ?_⟩
      rw [hall topic, hrouters topic, foldl_cons]

/-! ### The result -/

/-- The client subscribes with this router, and later neither subscribes to the topic again nor
unsubscribes from it. -/
def SubscribedLast (moves : List (Move Call)) (router : MqttRouter) : Prop :=
  ∃ before after, moves = before ++ .call (.subscribe router) :: after ∧
    (∀ other, .call (.subscribe other) ∈ after → other.key ≠ router.key) ∧
    .call (.unsubscribe router.clientId router.topic) ∉ after

lemma foldl_routerAfter {moves : List (Move Call)} {router : MqttRouter}
    (h : SubscribedLast moves router) (hv : IdUtil.validateClientId router.clientId = true)
    (ht : validateTopic router.topic = true) (old : Option MqttRouter) :
    moves.foldl (routerAfter router.clientId router.topic) old = some router := by
  obtain ⟨before, after, rfl, hsubscribe, hunsubscribe⟩ := h
  have hkeep : ∀ move ∈ after, routerAfter router.clientId router.topic (some router) move =
      some router := by
    intro move hmem
    cases move with
    | run i => rfl
    | call c =>
        cases c with
        | apply snapshot => rfl
        | openSession session => rfl
        | subscribe other =>
            refine if_neg fun hsame => hsubscribe other hmem ?_
            simp only [MqttRouter.key, hsame.1, hsame.2.1]
        | unsubscribe clientId topic =>
            refine if_neg fun hsame => hunsubscribe ?_
            rw [← hsame.1, ← hsame.2]
            exact hmem
  rw [foldl_append, foldl_cons]
  have hfirst : ∀ old, routerAfter router.clientId router.topic old (.call (.subscribe router)) =
      some router := fun old => if_pos ⟨rfl, rfl, hv, ht⟩
  rw [hfirst]
  clear hsubscribe hunsubscribe
  induction after with
  | nil => rfl
  | cons move after ih =>
      rw [foldl_cons, hkeep move mem_cons_self]
      exact ih fun move' hmem => hkeep move' (mem_cons_of_mem _ hmem)

lemma mem_sessionsOf {s : Cluster} {nodeId : Option UUID} {cleanSession : Bool}
    (h : session ∈ s.sessionsOf nodeId cleanSession) :
    session.cleanSession = cleanSession ∧ (nodeId = none ∨ nodeId = some session.nodeId) := by
  have hp := (mem_filter.1 h).2
  rw [decide_eq_true_eq] at hp
  exact ⟨hp.2, hp.1⟩

/-- `apply` changes nothing if it does not get the lock or the record of the client is not the one
it was started for; otherwise the record and the routers of the client are gone, and nothing
else. -/
def ApplyExact (s : Cluster) (session : Session) : Prop :=
  Pool.Leads exec (s, .apply session .tryLock) (apply s session, .done) ∧
    (session.clientId ∈ s.locks ∨ ¬Stale s session → apply s session = s) ∧
    (session.clientId ∉ s.locks → Stale s session → ∀ c, (apply s session).data c =
      if c = session.clientId then { s.data c with session := none, routers := fun _ => none }
      else s.data c)

lemma applyExact (h : s.Sound) (hclean : session.cleanSession = true) : ApplyExact s session := by
  refine ⟨leads_apply h session, apply_of_not_stale h, fun hlock hstale c => ?_⟩
  rw [apply_of_stale h hlock hstale]
  exact data_destroy h hclean c

/-- Every closure was begun by a move. -/
lemma begun_of_run {s₀ : Cluster} {moves : List (Move Call)}
    (hrun : run step ⟨s₀, []⟩ moves = some p) {snapshot : Session} {place : ApplyPlace}
    (hmem : Task.apply snapshot place ∈ p.tasks) : .call (.apply snapshot) ∈ moves := by
  have hinv : ∀ snapshot place, Task.apply snapshot place ∈ p.tasks →
      .call (.apply snapshot) ∈ moves := by
    refine invariant_run (P := fun _ _ => True) (I := fun p : State => ∀ snapshot place,
      Task.apply snapshot place ∈ p.tasks → .call (.apply snapshot) ∈ moves) ?_
      (fun _ _ hnil => absurd hnil not_mem_nil) (allSteps_true _ _) hrun
    intro p move p' hmove h _ hstep snapshot place hmem
    cases move with
    | call c =>
        obtain rfl := Option.some.inj hstep
        rcases mem_append.1 hmem with hmem | hmem
        · exact h snapshot place hmem
        · have hnew := mem_singleton.1 hmem
          cases c with
          | apply session =>
              cases hnew
              exact hmove
          | openSession session => cases hnew
          | subscribe router => cases hnew
          | unsubscribe clientId topic => cases hnew
    | run i =>
        obtain ⟨t, ht, rfl⟩ := Pool.step_run hstep
        obtain ⟨j, hj⟩ := mem_iff_getElem?.1 hmem
        rw [getElem?_set_of_some ht] at hj
        split_ifs at hj
        · obtain ⟨place', rfl⟩ := exec_eq_apply (Option.some.inj hj)
          exact h snapshot place' (mem_of_getElem? ht)
        · exact h snapshot place (mem_of_getElem? hj)
  exact hinv snapshot place hmem

/-- From here on the record of the session stays until another one is saved for the client, and
so does every router that the client subscribes with. -/
def Survives (p q : State) (moves : List (Move Call)) (session : Session) : Prop :=
  p.shared.sessionCache.get session.clientId = some session →
    AllSteps step (fun p move => ¬Saves session.clientId p move) p moves →
    q.shared.sessionCache.get session.clientId = some session ∧
      ∀ router, router.clientId = session.clientId → validateTopic router.topic = true →
        SubscribedLast moves router →
          q.shared.routerCache.routerOf router.clientId router.topic = some router

/-- The closures of `destroyTransientSessions` take away what is stored of the clients whose record
is the one that was found or gone, and a record of another node that is saved in the meantime stays
with the routers that are subscribed under it. -/
theorem cleanup_run {s₀ : Cluster} (h : s₀.Sound) (hlocks : s₀.locks = []) (nodeId : Option UUID)
    {before after : List (Move Call)} {p q : State} (hp : run step ⟨s₀, []⟩ before = some p)
    (hq : run step p after = some q) (hbefore : ∀ session, .call (.apply session) ∉ before)
    (hafter : ∀ session, .call (.apply session) ∈ after →
      session ∈ p.shared.sessionsOf nodeId true) :
    (∀ snapshot ∈ p.shared.sessionsOf nodeId true, ApplyExact q.shared snapshot) ∧
    (∀ snapshot place, .apply snapshot place ∈ q.tasks → StepSafe q.shared snapshot place) ∧
    (∀ mid last r session, after = mid ++ last → run step p mid = some r →
      (∀ snapshot ∈ p.shared.sessionsOf nodeId true, snapshot.clientId = session.clientId →
        session.nodeId ≠ snapshot.nodeId) → Survives r q last session) := by
  have hall : run step ⟨s₀, []⟩ (before ++ after) = some q := by
    rw [run_append, hp]
    exact hq
  have hinv := inv_run h hlocks hall
  refine ⟨fun snapshot hmem => ?_, fun snapshot place hmem => hinv.stepSafe hmem, ?_⟩
  · exact applyExact hinv.sound (mem_sessionsOf hmem).1
  · intro mid last r session hsplit hr hother hget hsaves
    have hreach : run step ⟨s₀, []⟩ (before ++ mid) = some r := by
      rw [run_append, hp]
      exact hr
    have hlast : run step r last = some q := by
      rw [hsplit, run_append, hr] at hq
      exact hq
    have hbegun : ∀ snapshot, .call (.apply snapshot) ∈ before ++ after →
        snapshot.clientId = session.clientId → ¬session.Matches snapshot := by
      intro snapshot hmem hclient hmatch
      rcases mem_append.1 hmem with hmem | hmem
      · exact hbefore snapshot hmem
      · exact hother snapshot (hafter snapshot hmem) hclient hmatch.1
    have hspared : Spared session r := by
      intro snapshot place hmem
      refine hbegun snapshot ?_
      rw [hsplit, ← append_assoc]
      exact mem_append_left _ (begun_of_run hreach hmem)
    obtain ⟨hsession, hrouters⟩ := hspared.run (inv_run h hlocks hreach) hget
      (fun snapshot hmem => hbegun snapshot (mem_append_right _ (hsplit ▸ mem_append_right _ hmem)))
      hsaves hlast
    refine ⟨hsession, fun router hclient htopic hlast => ?_⟩
    have hvalid := ((inv_run h hlocks hreach).sound.keyed _ _ hget).2
    rw [hclient, hrouters router.topic, ← hclient]
    exact foldl_routerAfter hlast (hclient ▸ hvalid) htopic _

/-- The session of a node that left, the one that its client opens at another node, and a router
that it subscribes with there. -/
def sampleLeft : Session := ⟨⟨"c".toList, true, 1⟩, 10⟩

def sampleOpened : Session := ⟨⟨"c".toList, true, 2⟩, 20⟩

def sampleRouter : MqttRouter := ⟨2, "c".toList, "t".toList, 1⟩

def sampleCluster : Cluster where
  sessionCache := (∅ : PlainMap Str Session).put "c".toList sampleLeft
  routerCache := .empty
  awaitCache := ∅
  queueCache := ∅
  inflightCache := ∅
  locks := []

lemma sound_sampleCluster : sampleCluster.Sound := by
  refine ⟨fun clientId session hget => ?_, RouterCache.consistent_empty⟩
  rcases PlainMap.eq_or_get_of_get_put _ hget with ⟨rfl, rfl⟩ | hget
  · exact ⟨rfl, rfl⟩
  · exact absurd hget (by simp)

/-- The closure gets the lock after the record was saved, and the client subscribes before the
closure gives it back. -/
def sampleMoves : List (Move Call) :=
  [.call (.apply sampleLeft), .call (.openSession sampleOpened), .run 1, .run 1, .run 1, .run 0]

def sampleLast : List (Move Call) := [.run 0, .call (.subscribe sampleRouter), .run 0]

theorem cleanup_run_sample : ∃ q,
    run step ⟨sampleCluster, []⟩ (sampleMoves ++ sampleLast) = some q ∧
      ApplyExact q.shared sampleLeft ∧
      q.shared.sessionCache.get "c".toList = some sampleOpened ∧
      q.shared.routerCache.routerOf "c".toList "t".toList = some sampleRouter := by
  have hstart : run step ⟨sampleCluster, []⟩ [] = some ⟨sampleCluster, []⟩ := rfl
  have hclosure : ∀ session, .call (.apply session) ∈ sampleMoves ++ sampleLast →
      session ∈ sampleCluster.sessionsOf (some 1) true := by
    intro session hmem
    simp only [sampleMoves, sampleLast, cons_append, nil_append, mem_cons, Move.call.injEq,
      Call.apply.injEq, reduceCtorEq, not_mem_nil, or_false] at hmem
    subst hmem
    decide
  obtain ⟨q, hq⟩ : ∃ q, run step ⟨sampleCluster, []⟩ (sampleMoves ++ sampleLast) = some q :=
    ⟨_, rfl⟩
  obtain ⟨r, hr⟩ : ∃ r, run step ⟨sampleCluster, []⟩ sampleMoves = some r := ⟨_, rfl⟩
  obtain ⟨hexact, -, hsurvives⟩ := cleanup_run sound_sampleCluster rfl (some 1) hstart hq
    (fun session hmem => absurd hmem not_mem_nil) hclosure
  have hother : ∀ snapshot ∈ sampleCluster.sessionsOf (some 1) true,
      snapshot.clientId = sampleOpened.clientId → sampleOpened.nodeId ≠ snapshot.nodeId := by
    intro snapshot hmem _ hnode
    have hleft := (mem_sessionsOf hmem).2
    rw [← hnode] at hleft
    exact absurd hleft (by decide)
  have hsaves : AllSteps step (fun p move => ¬Saves sampleOpened.clientId p move) r sampleLast := by
    cases hr
    refine ⟨?_, fun r' hr' => ⟨id, fun r'' hr'' => ⟨?_, fun _ _ => trivial⟩⟩⟩
    · rintro ⟨other, hget, -⟩
      cases hget
    · cases hr'
      cases hr''
      rintro ⟨other, hget, -⟩
      cases hget
  have hrecord : r.shared.sessionCache.get sampleOpened.clientId = some sampleOpened := by
    cases hr
    rfl
  obtain ⟨hget, hrouter⟩ := hsurvives sampleMoves sampleLast r sampleOpened rfl hr hother hrecord
    hsaves
  refine ⟨q, hq, hexact _ (by decide), hget, hrouter sampleRouter rfl rfl ?_⟩
  refine ⟨[.run 0], [.run 0], rfl, fun other hmem => ?_, fun hmem => ?_⟩
  · exact absurd hmem (by simp)
  · exact absurd hmem (by simp)

end SessionCleanup

end Stuart
