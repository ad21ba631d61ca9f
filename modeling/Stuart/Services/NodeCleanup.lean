/-
The cleanup after a node of the cluster left or failed.

Every surviving node hears of it, and its handler tries to take the lock of the node's record.  The
one that finds the record with the status Running under the lock marks it as Stopped and destroys
the transient sessions of the node.  Meanwhile the instance may start again under a new node id:
`initNode` looks for the record of its former life and deletes it, or, as the first node of the
cluster, clears all records and destroys all transient sessions.

A handler and `initNode` run one access of the node cache at a time.  Whether `remove` would wait
for the lock makes no difference here, so it does not.
-/
import Stuart.Lib.Pool
import Stuart.Caches.RouterCache

namespace Stuart

open List Lib StringUtils

namespace NodeCleanup

inductive Status where
  | Running
  | Stopped
deriving DecidableEq, Repr

structure MqttNode where
  nodeId : UUID
  instanceId : Str
  listenAddr : Str
  status : Status
deriving DecidableEq

/-- The node cache and its locks. -/
structure NodeCache where
  cache : PlainMap UUID MqttNode
  locks : List UUID
  /-- ghost: the arguments of the calls of `destroyTransientSessions` -/
  destroyed : List (Option UUID)

namespace NodeCache

/-- `get(instanceId, listenAddr)`: the first row of the query. -/
def find (s : NodeCache) (instanceId listenAddr : Str) : Option MqttNode :=
  if isBlank (some instanceId) || isBlank (some listenAddr) then none
  else s.cache.values.find? fun node =>
    decide (node.instanceId = instanceId ∧ node.listenAddr = listenAddr)

def saveIfAbsent (s : NodeCache) (node : MqttNode) : NodeCache :=
  if s.cache.containsKey node.nodeId then s
  else { s with cache := s.cache.put node.nodeId node }

def clear (s : NodeCache) : NodeCache := { s with cache := ∅ }

def delete (s : NodeCache) (nodeId : UUID) : NodeCache :=
  { s with cache := s.cache.remove nodeId }

def put (s : NodeCache) (node : MqttNode) : NodeCache :=
  { s with cache := s.cache.put node.nodeId node }

def tryLock (s : NodeCache) (nodeId : UUID) : NodeCache := { s with locks := nodeId :: s.locks }

def unlock (s : NodeCache) (nodeId : UUID) : NodeCache :=
  { s with locks := s.locks.filter (· ≠ nodeId) }

def destroyTransientSessions (s : NodeCache) (nodeId : Option UUID) : NodeCache :=
  { s with destroyed := s.destroyed ++ [nodeId] }

/-- How often the transient sessions of the node were destroyed. -/
def cleanups (s : NodeCache) (nodeId : UUID) : ℕ :=
  s.destroyed.countP fun destroyed => decide (destroyed = none ∨ destroyed = some nodeId)

/-- The record of the node is there and says that the node is running. -/
def IsRunning (s : NodeCache) (nodeId : UUID) : Prop :=
  ∃ node, s.cache.get nodeId = some node ∧ node.status = .Running

end NodeCache

open NodeCache

/-- Where the handler of a survivor is. -/
inductive HandlerPlace where
  /-- `nodeCache.lock`, which looks at the record itself -/
  | lock
  | tryLock
  /-- it holds the lock and asks for the record -/
  | get
  /-- the two accesses of `nodeCache.update` -/
  | updateGet
  | updatePut (node : MqttNode)
  | destroy
  | unlock
deriving DecidableEq

/-- Where `initNode` is. -/
inductive InitPlace where
  | query (isFirstNode : Bool)
  | clear
  | destroyAll
  | delete (nodeId : UUID)
  | save
deriving DecidableEq

inductive Task where
  | nodeEvent (eventNodeId : UUID) (place : HandlerPlace)
  | initNode (node : MqttNode) (place : InitPlace)
  | done
deriving DecidableEq

/-- The next step of a handler. -/
def execHandler (s : NodeCache) (eventNodeId : UUID) : HandlerPlace → NodeCache × Task
  | .lock =>
      match s.cache.get eventNodeId with
      | none => (s, .done)
      | some node =>
          if node.status = .Stopped then (s, .done) else (s, .nodeEvent eventNodeId .tryLock)
  | .tryLock =>
      if eventNodeId ∈ s.locks then (s, .done)
      else (s.tryLock eventNodeId, .nodeEvent eventNodeId .get)
  | .get =>
      match s.cache.get eventNodeId with
      | none => (s, .nodeEvent eventNodeId .unlock)
      | some node =>
          if node.status = .Running then (s, .nodeEvent eventNodeId .updateGet)
          else (s, .nodeEvent eventNodeId .unlock)
  | .updateGet =>
      match s.cache.get eventNodeId with
      | none => (s, .nodeEvent eventNodeId .destroy)
      | some node => (s, .nodeEvent eventNodeId (.updatePut { node with status := .Stopped }))
  | .updatePut node => (s.put node, .nodeEvent eventNodeId .destroy)
  | .destroy =>
      (s.destroyTransientSessions (some eventNodeId), .nodeEvent eventNodeId .unlock)
  | .unlock => (s.unlock eventNodeId, .done)

/-- The next step of `initNode`. -/
def execInit (s : NodeCache) (node : MqttNode) : InitPlace → NodeCache × Task
  | .query isFirstNode =>
      if isFirstNode then (s, .initNode node .clear)
      else
        match s.find node.instanceId node.listenAddr with
        | none => (s, .initNode node .save)
        | some old => (s, .initNode node (.delete old.nodeId))
  | .clear => (s.clear, .initNode node .destroyAll)
  | .destroyAll => (s.destroyTransientSessions none, .initNode node .save)
  | .delete nodeId => (s.delete nodeId, .initNode node .save)
  | .save => (s.saveIfAbsent node, .done)

def exec (s : NodeCache) : Task → NodeCache × Task
  | .nodeEvent eventNodeId place => execHandler s eventNodeId place
  | .initNode node place => execInit s node place
  | .done => (s, .done)

abbrev State := Pool NodeCache Task

/-- The task at the index takes its next step. -/
def step (p : State) (index : ℕ) : Option State :=
  Pool.step (C := Empty) (fun c => c.elim) exec p (.run index)

/-- `survivors` nodes hear that the node `dead` is gone, and the instance starts again as `node`.
It is the first node of the cluster if nobody survived. -/
def initial (s : NodeCache) (dead : UUID) (survivors : ℕ) (node : MqttNode) : State where
  shared := s
  tasks := replicate survivors (.nodeEvent dead .lock) ++
    [.initNode node (.query (decide (survivors = 0)))]

/-- The node cache before: the record of the node that is gone says that it is running, and nobody
has done anything about it.  The instance starts again under a new id. -/
structure Before (s : NodeCache) (dead : UUID) (node : MqttNode) : Prop where
  keyed : ∀ nodeId stored, s.cache.get nodeId = some stored → stored.nodeId = nodeId
  running : s.IsRunning dead
  locks : s.locks = []
  destroyed : s.cleanups dead = 0
  new : node.nodeId ≠ dead

def Task.isHandler : Task → Bool
  | .nodeEvent .. => true
  | _ => false

/-- All handlers have finished; without survivors there is only `initNode`. -/
def Finished (survivors : ℕ) (p : State) : Prop :=
  (∀ t ∈ p.tasks, t.isHandler = false) ∧ (survivors = 0 → ∀ t ∈ p.tasks, t = .done)

/-- The handler has found that the node was running, and has not destroyed its sessions yet. -/
def Task.found : Task → Bool
  | .nodeEvent _ .updateGet | .nodeEvent _ (.updatePut _) | .nodeEvent _ .destroy => true
  | _ => false

/-- `initNode` deletes the record while it says that the node is running, and no handler has found
it so. -/
def EarlyDelete (dead : UUID) (p : State) (index : ℕ) : Prop :=
  (∃ node, p.tasks[index]? = some (.initNode node (.delete dead))) ∧ p.shared.IsRunning dead ∧
    ∀ t ∈ p.tasks, t.found = false

/-! ### What a step does -/

/-- The handler has the lock. -/
def Task.inside : Task → Bool
  | .nodeEvent _ .lock | .nodeEvent _ .tryLock => false
  | .nodeEvent .. => true
  | _ => false

/-- What holds of every task if somebody survived: the handlers are about the node, and the
instance has a new id and is not the first node. -/
def Task.Ok (dead : UUID) : Task → Prop
  | .nodeEvent eventNodeId place => eventNodeId = dead ∧
      ∀ node, place = .updatePut node → node.nodeId = dead ∧ node.status = .Stopped
  | .initNode node place => node.nodeId ≠ dead ∧
      place ≠ .query true ∧ place ≠ .clear ∧ place ≠ .destroyAll
  | .done => True

/-- Every record is stored under its node id. -/
def Keyed (s : NodeCache) : Prop :=
  ∀ nodeId stored, s.cache.get nodeId = some stored → stored.nodeId = nodeId

section Exec

variable {s s' : NodeCache} {dead : UUID} {t t' : Task}

lemma isRunning_congr (h : s'.cache.get dead = s.cache.get dead) :
    s'.IsRunning dead ↔ s.IsRunning dead := by
  simp only [IsRunning, h]

lemma isRunning_of_get {node : MqttNode} (h : s.cache.get dead = some node) :
    s.IsRunning dead ↔ node.status = .Running := by
  constructor
  · rintro ⟨stored, hstored, hstatus⟩
    obtain rfl := Option.some.inj (h.symm.trans hstored)
    exact hstatus
  · exact fun hstatus => ⟨node, h, hstatus⟩

lemma not_isRunning_of_get_none (h : s.cache.get dead = none) : ¬s.IsRunning dead := by
  rintro ⟨node, hnode, -⟩
  rw [h] at hnode
  contradiction

/-- The steps of a task: those of a handler in the order of its places, then those of `initNode`.
Each comes with what it finds and what it writes. -/
inductive Step (dead : UUID) (s : NodeCache) : Task → NodeCache → Task → Prop
  | absent (h : ¬s.IsRunning dead) : Step dead s (.nodeEvent dead .lock) s .done
  | present : Step dead s (.nodeEvent dead .lock) s (.nodeEvent dead .tryLock)
  | refused (h : dead ∈ s.locks) : Step dead s (.nodeEvent dead .tryLock) s .done
  | locked (h : dead ∉ s.locks) :
      Step dead s (.nodeEvent dead .tryLock) (s.tryLock dead) (.nodeEvent dead .get)
  | stopped (h : ¬s.IsRunning dead) :
      Step dead s (.nodeEvent dead .get) s (.nodeEvent dead .unlock)
  | running (h : s.IsRunning dead) :
      Step dead s (.nodeEvent dead .get) s (.nodeEvent dead .updateGet)
  | gone (h : ¬s.IsRunning dead) :
      Step dead s (.nodeEvent dead .updateGet) s (.nodeEvent dead .destroy)
  | found (node : MqttNode) (hid : node.nodeId = dead) (hstatus : node.status = .Stopped) :
      Step dead s (.nodeEvent dead .updateGet) s (.nodeEvent dead (.updatePut node))
  | updated (node : MqttNode) (h : ¬(s.put node).IsRunning dead) :
      Step dead s (.nodeEvent dead (.updatePut node)) (s.put node) (.nodeEvent dead .destroy)
  | destroyed : Step dead s (.nodeEvent dead .destroy)
      (s.destroyTransientSessions (some dead)) (.nodeEvent dead .unlock)
  | unlocked : Step dead s (.nodeEvent dead .unlock) (s.unlock dead) .done
  | queried (node : MqttNode) (place : InitPlace)
      (h : place = .save ∨ ∃ nodeId, place = .delete nodeId) (hnew : node.nodeId ≠ dead) :
      Step dead s (.initNode node (.query false)) s (.initNode node place)
  | deleted (node : MqttNode) (nodeId : UUID) (hnew : node.nodeId ≠ dead) :
      Step dead s (.initNode node (.delete nodeId)) (s.delete nodeId) (.initNode node .save)
  | saved (node : MqttNode) (h : (s.saveIfAbsent node).IsRunning dead ↔ s.IsRunning dead) :
      Step dead s (.initNode node .save) (s.saveIfAbsent node) .done
  | finished : Step dead s .done s .done

lemma saveIfAbsent_isRunning {node : MqttNode} (h : node.nodeId ≠ dead) :
    (s.saveIfAbsent node).IsRunning dead ↔ s.IsRunning dead := by
  simp only [saveIfAbsent]
  split_ifs
  · exact Iff.rfl
  · exact isRunning_congr (PlainMap.get_put_of_ne _ (Ne.symm h) _)

lemma put_isRunning {node : MqttNode} (hid : node.nodeId = dead) (h : node.status = .Stopped) :
    ¬(s.put node).IsRunning dead := by
  have hget : (s.put node).cache.get dead = some node := by
    rw [← hid]
    exact PlainMap.get_put_self _ _ _
  rw [isRunning_of_get hget, h]
  decide

lemma step_exec (hkeyed : Keyed s) (ht : t.Ok dead) : Step dead s t (exec s t).1 (exec s t).2 := by
  cases t with
  | nodeEvent eventNodeId place =>
      obtain ⟨rfl, hput⟩ := ht
      cases place with
      | lock =>
          simp only [exec, execHandler]
          cases hget : s.cache.get eventNodeId with
          | none => exact .absent (not_isRunning_of_get_none hget)
          | some node =>
              dsimp only
              split_ifs with hstatus
              · refine .absent ?_
                rw [isRunning_of_get hget, hstatus]
                decide
              · exact .present
      | tryLock =>
          simp only [exec, execHandler]
          split_ifs with hlock
          · exact .refused hlock
          · exact .locked hlock
      | get =>
          simp only [exec, execHandler]
          cases hget : s.cache.get eventNodeId with
          | none => exact .stopped (not_isRunning_of_get_none hget)
          | some node =>
              dsimp only
              split_ifs with hstatus
              · exact .running ((isRunning_of_get hget).2 hstatus)
              · exact .stopped fun hrunning => hstatus ((isRunning_of_get hget).1 hrunning)
      | updateGet =>
          simp only [exec, execHandler]
          cases hget : s.cache.get eventNodeId with
          | none => exact .gone (not_isRunning_of_get_none hget)
          | some node =>
              have hid : node.nodeId = eventNodeId := hkeyed _ _ hget
              exact .found _ hid rfl
      | updatePut node =>
          obtain ⟨hid, hstatus⟩ := hput node rfl
          exact .updated node (put_isRunning hid hstatus)
      | destroy => exact .destroyed
      | unlock => exact .unlocked
  | initNode node place =>
      obtain ⟨hnew, hquery, hclear, hall⟩ := ht
      cases place with
      | query isFirstNode =>
          cases isFirstNode with
          | true => exact absurd rfl hquery
          | false =>
              simp only [exec, execInit, Bool.false_eq_true, if_false]
              cases s.find node.instanceId node.listenAddr with
              | none => exact .queried node .save (Or.inl rfl) hnew
              | some old => exact .queried node (.delete old.nodeId) (Or.inr ⟨_, rfl⟩) hnew
      | clear => exact absurd rfl hclear
      | destroyAll => exact absurd rfl hall
      | delete nodeId => exact .deleted node nodeId hnew
      | save => exact .saved node (saveIfAbsent_isRunning hnew)
  | done => exact .finished

lemma keyed_put (h : Keyed s) (node : MqttNode) : Keyed (s.put node) := by
  intro nodeId stored hget
  rcases PlainMap.eq_or_get_of_get_put _ hget with ⟨rfl, rfl⟩ | hget
  · rfl
  · exact h nodeId stored hget

lemma Step.keyed (hstep : Step dead s t s' t') (h : Keyed s) : Keyed s' := by
  cases hstep with
  | updated node _ => exact keyed_put h node
  | deleted node nodeId _ =>
      exact fun nodeId' stored hget => h nodeId' stored (PlainMap.get_of_get_remove _ hget)
  | saved node _ =>
      simp only [saveIfAbsent]
      split_ifs
      · exact h
      · exact keyed_put h node
  | _ => exact h

lemma Step.ok (hstep : Step dead s t s' t') (ht : t.Ok dead) : t'.Ok dead := by
  cases hstep with
  | found node hid hstatus =>
      refine ⟨rfl, fun other hother => ?_⟩
      cases hother
      exact ⟨hid, hstatus⟩
  | queried node place h hnew =>
      rcases h with rfl | ⟨nodeId, rfl⟩
      · exact ⟨hnew, by simp, by simp, by simp⟩
      · exact ⟨hnew, by simp, by simp, by simp⟩
  | deleted node nodeId hnew => exact ⟨hnew, by simp, by simp, by simp⟩
  | absent _ | refused _ | unlocked | saved _ _ | finished => trivial
  | _ => exact ⟨rfl, by simp⟩

/-- The record of the node is locked. -/
def isLocked (dead : UUID) (s : NodeCache) : Bool := decide (dead ∈ s.locks)

lemma Step.lockStep (hstep : Step dead s t s' t') :
    Pool.LockStep (isLocked dead) Task.inside s t (s', t') := by
  cases hstep with
  | locked h =>
      refine Or.inr (Or.inl ⟨?_, ?_, rfl, rfl⟩)
      · simp [isLocked, h]
      · simp [isLocked, tryLock]
  | unlocked =>
      refine Or.inr (Or.inr ⟨?_, rfl, rfl⟩)
      simp [isLocked, unlock]
  | saved node _ =>
      refine Or.inl ⟨?_, rfl⟩
      simp only [isLocked, saveIfAbsent]
      split_ifs
      · rfl
      · rfl
  | _ => exact Or.inl ⟨rfl, rfl⟩

/-- A record that does not say that the node is running will never say so again. -/
lemma Step.not_isRunning (hstep : Step dead s t s' t') (h : ¬s.IsRunning dead) :
    ¬s'.IsRunning dead := by
  cases hstep with
  | updated node hput => exact hput
  | deleted node nodeId _ =>
      rintro ⟨stored, hget, hstatus⟩
      exact h ⟨stored, PlainMap.get_of_get_remove _ hget, hstatus⟩
  | saved node hsame => exact fun hrunning => h (hsame.1 hrunning)
  | _ => exact h

/-- Only a handler that found the record and `initNode` change what the record says. -/
lemma Step.isRunning (hstep : Step dead s t s' t') (h : s.IsRunning dead) (hfound : t.found = false)
    (hdelete : ∀ node, t ≠ .initNode node (.delete dead)) : s'.IsRunning dead := by
  cases hstep with
  | updated node _ => contradiction
  | deleted node nodeId _ =>
      have hne : dead ≠ nodeId := fun heq => hdelete node (by rw [heq])
      exact (isRunning_congr (PlainMap.get_remove_of_ne _ hne)).2 h
  | saved node hsame => exact hsame.2 h
  | _ => exact h

/-- Only the handler that found the record destroys the sessions. -/
lemma Step.cleanups_of_ne (hstep : Step dead s t s' t') (h : t ≠ .nodeEvent dead .destroy) :
    s'.cleanups dead = s.cleanups dead := by
  cases hstep with
  | destroyed => exact absurd rfl h
  | saved node _ =>
      simp only [saveIfAbsent]
      split_ifs
      · rfl
      · rfl
  | _ => rfl

lemma Step.cleanups_of_eq (hstep : Step dead s t s' t') (h : t = .nodeEvent dead .destroy) :
    s'.cleanups dead = s.cleanups dead + 1 := by
  subst h
  cases hstep with
  | destroyed => simp [NodeCache.cleanups, destroyTransientSessions, countP_append]

/-- A handler finds the record only under the lock and only if the node is running. -/
lemma Step.found_of_found (hstep : Step dead s t s' t') (h : t'.found = true) :
    t.found = true ∨ t.inside = true ∧ s.IsRunning dead := by
  cases hstep with
  | running hrunning => exact Or.inr ⟨rfl, hrunning⟩
  | gone _ | found _ _ _ | updated _ _ => exact Or.inl rfl
  | queried node place hplace _ =>
      rcases hplace with rfl | ⟨nodeId, rfl⟩
      · contradiction
      · contradiction
  | _ => contradiction

/-- The handler that found the record goes on to destroy the sessions, and then the record does
not say any more that the node is running. -/
lemma Step.found_cases (hstep : Step dead s t s' t') (h : t.found = true) :
    (t ≠ .nodeEvent dead .destroy ∧ t'.found = true ∧
        (t' = .nodeEvent dead .destroy → ¬s'.IsRunning dead)) ∨
      t = .nodeEvent dead .destroy ∧ t'.found = false := by
  cases hstep with
  | gone hgone => exact Or.inl ⟨by simp, rfl, fun _ => hgone⟩
  | found node _ _ => exact Or.inl ⟨by simp, rfl, by simp⟩
  | updated node hput => exact Or.inl ⟨by simp, rfl, fun _ => hput⟩
  | destroyed => exact Or.inr ⟨rfl, rfl⟩
  | _ => contradiction

/-- A handler that was refused found somebody else inside. -/
lemma Step.isHandler (hstep : Step dead s t s' t') (h : t.isHandler = true)
    (hrunning : s.IsRunning dead) (hunlock : t ≠ .nodeEvent dead .unlock) :
    t'.isHandler = true ∨ t.inside = false ∧ isLocked dead s = true := by
  cases hstep with
  | absent hnot => exact absurd hrunning hnot
  | refused hlock => exact Or.inr ⟨rfl, by simpa [isLocked] using hlock⟩
  | unlocked => exact absurd rfl hunlock
  | queried _ _ _ _ | deleted _ _ _ | saved _ _ | finished => contradiction
  | _ => exact Or.inl rfl

lemma Step.ne_unlock (hstep : Step dead s t s' t') (h : t.found = false)
    (hrunning : s.IsRunning dead) : t' ≠ .nodeEvent dead .unlock := by
  rintro rfl
  cases hstep with
  | stopped hnot => exact hnot hrunning
  | destroyed => contradiction

lemma Step.ne_destroy (hstep : Step dead s t s' t') (h : t.found = false) :
    t' ≠ .nodeEvent dead .destroy := by
  rintro rfl
  cases hstep with
  | gone _ => contradiction
  | updated _ _ => contradiction

lemma isHandler_of_inside (h : t.inside = true) : t.isHandler = true := by
  cases t with
  | nodeEvent eventNodeId place => rfl
  | initNode node place => contradiction
  | done => contradiction

lemma isHandler_of_found (h : t.found = true) : t.isHandler = true := by
  cases t with
  | nodeEvent eventNodeId place => rfl
  | initNode node place => contradiction
  | done => contradiction

/-- A handler that found the record still has the lock. -/
lemma inside_of_found (h : t.found = true) : t.inside = true := by
  cases t with
  | nodeEvent eventNodeId place =>
      cases place with
      | lock | tryLock => contradiction
      | _ => rfl
  | initNode node place => contradiction
  | done => contradiction

end Exec

/-! ### The phases -/

variable {dead : UUID} {p p' : State}

structure Basics (dead : UUID) (p : State) : Prop where
  keyed : Keyed p.shared
  ok : ∀ t ∈ p.tasks, t.Ok dead
  exclusive : p.Exclusive (isLocked dead) Task.inside

/-- Nobody has found the record, and somebody still looks for it. -/
structure Untouched (dead : UUID) (p : State) : Prop where
  isRunning : p.shared.IsRunning dead
  cleanups : p.shared.cleanups dead = 0
  notFound : ∀ t ∈ p.tasks, t.found = false
  notUnlock : ∀ t ∈ p.tasks, t ≠ .nodeEvent dead .unlock
  handler : ∃ t ∈ p.tasks, t.isHandler = true

/-- A handler has found the record and will destroy the sessions. -/
structure Found (dead : UUID) (p : State) : Prop where
  cleanups : p.shared.cleanups dead = 0
  found : ∃ t ∈ p.tasks, t.found = true
  destroy : .nodeEvent dead .destroy ∈ p.tasks → ¬p.shared.IsRunning dead

/-- Nobody will destroy the sessions any more, which happened so many times. -/
structure Over (dead : UUID) (count : ℕ) (p : State) : Prop where
  cleanups : p.shared.cleanups dead = count
  notFound : ∀ t ∈ p.tasks, t.found = false
  notRunning : ¬p.shared.IsRunning dead

section Phases

variable {s' : NodeCache} {t t' : Task} {i : ℕ}

lemma Basics.step (h : Basics dead p) (ht : p.tasks[i]? = some t)
    (hstep : Step dead p.shared t s' t') : Basics dead ⟨s', p.tasks.set i t'⟩ := by
  refine ⟨hstep.keyed h.keyed, fun u hu => ?_, h.exclusive.set ht hstep.lockStep⟩
  rcases mem_or_eq_of_mem_set hu with hu | rfl
  · exact h.ok u hu
  · exact hstep.ok (h.ok t (mem_of_getElem? ht))

/-- Another task than the one that takes a step. -/
lemma mem_set_of_ne (ht : p.tasks[i]? = some t) {u : Task} (hu : u ∈ p.tasks) (hne : u ≠ t) :
    u ∈ p.tasks.set i t' := by
  obtain ⟨j, hj⟩ := mem_iff_getElem?.1 hu
  have hji : j ≠ i := by
    rintro rfl
    exact hne (Option.some.inj (hj.symm.trans ht))
  refine mem_iff_getElem?.2 ⟨j, ?_⟩
  rw [getElem?_set_of_some ht, if_neg hji]
  exact hj

lemma mem_set_self (ht : p.tasks[i]? = some t) : t' ∈ p.tasks.set i t' := by
  refine mem_iff_getElem?.2 ⟨i, ?_⟩
  rw [getElem?_set_of_some ht, if_pos rfl]

/-- Somebody holds a lock that is taken. -/
lemma Basics.exists_inside (h : Basics dead p) (hlock : isLocked dead p.shared = true) :
    ∃ t ∈ p.tasks, t.inside = true := by
  have hcount : p.tasks.countP Task.inside = 1 := by
    rw [h.exclusive, hlock]
    rfl
  exact countP_pos_iff.1 (by omega)

/-- As long as `initNode` does not delete the record, it is found or still looked for. -/
lemma Untouched.step (hb : Basics dead p) (h : Untouched dead p) (ht : p.tasks[i]? = some t)
    (hstep : Step dead p.shared t s' t') (hdelete : ∀ node, t ≠ .initNode node (.delete dead)) :
    Untouched dead ⟨s', p.tasks.set i t'⟩ ∨ Found dead ⟨s', p.tasks.set i t'⟩ := by
  have hmem := mem_of_getElem? ht
  have hnot := h.notFound t hmem
  have hrunning := hstep.isRunning h.isRunning hnot hdelete
  have hcleanups : s'.cleanups dead = 0 := by
    rw [hstep.cleanups_of_ne, h.cleanups]
    rintro rfl
    contradiction
  cases hfound : t'.found with
  | true =>
      refine Or.inr ⟨hcleanups, ⟨t', mem_set_self ht, hfound⟩, fun hdestroy => ?_⟩
      rcases mem_or_eq_of_mem_set hdestroy with hdestroy | hdestroy
      · exact absurd (h.notFound _ hdestroy) (by simp [Task.found])
      · exact absurd hdestroy.symm (hstep.ne_destroy hnot)
  | false =>
      refine Or.inl ⟨hrunning, hcleanups, fun u hu => ?_, fun u hu => ?_, ?_⟩
      · rcases mem_or_eq_of_mem_set hu with hu | rfl
        · exact h.notFound u hu
        · exact hfound
      · rcases mem_or_eq_of_mem_set hu with hu | rfl
        · exact h.notUnlock u hu
        · exact hstep.ne_unlock hnot h.isRunning
      · obtain ⟨u, hu, hhandler⟩ := h.handler
        by_cases hut : u = t
        · subst hut
          rcases hstep.isHandler hhandler h.isRunning (h.notUnlock u hu) with hnew | ⟨hout, hlock⟩
          · exact ⟨t', mem_set_self ht, hnew⟩
          · -- the one that holds the lock goes on looking
            obtain ⟨v, hv, hin⟩ := hb.exists_inside hlock
            refine ⟨v, mem_set_of_ne ht hv ?_, isHandler_of_inside hin⟩
            rintro rfl
            rw [hin] at hout
            contradiction
        · exact ⟨u, mem_set_of_ne ht hu hut, hhandler⟩

/-- `initNode` deletes the record before anybody has found it. -/
lemma Untouched.early {node : MqttNode} (h : Untouched dead p) :
    Over dead 0 ⟨p.shared.delete dead, p.tasks.set i (.initNode node .save)⟩ := by
  refine ⟨h.cleanups, fun u hu => ?_, ?_⟩
  · rcases mem_or_eq_of_mem_set hu with hu | rfl
    · exact h.notFound u hu
    · rfl
  · exact not_isRunning_of_get_none (PlainMap.get_remove_self _ _)

/-- The handler that has found the record destroys the sessions, and no other one finds it. -/
lemma Found.step (hb : Basics dead p) (h : Found dead p) (ht : p.tasks[i]? = some t)
    (hstep : Step dead p.shared t s' t') :
    Found dead ⟨s', p.tasks.set i t'⟩ ∨ Over dead 1 ⟨s', p.tasks.set i t'⟩ := by
  cases hfound : t.found with
  | true =>
      -- the lock keeps the others out
      have hothers : ∀ u ∈ p.tasks.set i t', u = t' ∨ u.found = false := by
        intro u hu
        obtain ⟨j, hj⟩ := mem_iff_getElem?.1 hu
        rw [getElem?_set_of_some ht] at hj
        split_ifs at hj with hji
        · exact Or.inl (Option.some.inj hj).symm
        · have hout := hb.exclusive.other ht hj (Ne.symm hji) (inside_of_found hfound)
          refine Or.inr ?_
          by_contra hu
          rw [inside_of_found (by simpa using hu)] at hout
          contradiction
      rcases hstep.found_cases hfound with ⟨hne, hnew, hdestroy⟩ | ⟨rfl, hnew⟩
      · refine Or.inl ⟨?_, ⟨t', mem_set_self ht, hnew⟩, fun hmem => ?_⟩
        · rw [hstep.cleanups_of_ne hne, h.cleanups]
        · rcases hothers _ hmem with heq | hout
          · exact hdestroy heq.symm
          · contradiction
      · refine Or.inr ⟨?_, fun u hu => ?_, ?_⟩
        · rw [hstep.cleanups_of_eq rfl, h.cleanups]
        · rcases hothers u hu with rfl | hout
          · exact hnew
          · exact hout
        · exact hstep.not_isRunning (h.destroy (mem_of_getElem? ht))
  | false =>
      obtain ⟨u, hu, hufound⟩ := h.found
      have hne : t ≠ .nodeEvent dead .destroy := by
        rintro rfl
        contradiction
      refine Or.inl ⟨?_, ⟨u, mem_set_of_ne ht hu ?_, hufound⟩, fun hmem => ?_⟩
      · rw [hstep.cleanups_of_ne hne, h.cleanups]
      · rintro rfl
        rw [hfound] at hufound
        contradiction
      · rcases mem_or_eq_of_mem_set hmem with hmem | heq
        · exact hstep.not_isRunning (h.destroy hmem)
        · exact absurd heq.symm (hstep.ne_destroy hfound)

/-- Then nothing more happens to the sessions. -/
lemma Over.step {count : ℕ} (h : Over dead count p) (ht : p.tasks[i]? = some t)
    (hstep : Step dead p.shared t s' t') : Over dead count ⟨s', p.tasks.set i t'⟩ := by
  have hnot := h.notFound t (mem_of_getElem? ht)
  refine ⟨?_, fun u hu => ?_, hstep.not_isRunning h.notRunning⟩
  · rw [hstep.cleanups_of_ne, h.cleanups]
    rintro rfl
    contradiction
  · rcases mem_or_eq_of_mem_set hu with hu | rfl
    · exact h.notFound u hu
    · by_contra hfound
      rcases hstep.found_of_found (by simpa using hfound) with hfound | ⟨-, hrunning⟩
      · rw [hnot] at hfound
        contradiction
      · exact h.notRunning hrunning

end Phases

/-! ### Whole runs -/

lemma step_cases {i : ℕ} (hb : Basics dead p) (h : step p i = some p') : ∃ t t' s',
    p.tasks[i]? = some t ∧ Step dead p.shared t s' t' ∧ p' = ⟨s', p.tasks.set i t'⟩ := by
  obtain ⟨t, ht, rfl⟩ := Pool.step_run h
  exact ⟨t, _, _, ht, step_exec hb.keyed (hb.ok t (mem_of_getElem? ht)), rfl⟩

/-- Before the record is deleted too early. -/
def Phase (dead : UUID) (p : State) : Prop :=
  Basics dead p ∧ (Untouched dead p ∨ Found dead p ∨ Over dead 1 p)

lemma Phase.step {i : ℕ} (h : Phase dead p) (hearly : ¬EarlyDelete dead p i)
    (hstep : step p i = some p') : Phase dead p' := by
  obtain ⟨hb, hphase⟩ := h
  obtain ⟨t, t', s', ht, hs, rfl⟩ := step_cases hb hstep
  refine ⟨hb.step ht hs, ?_⟩
  rcases hphase with h | h | h
  · have hdelete : ∀ node, t ≠ .initNode node (.delete dead) := by
      rintro node rfl
      exact hearly ⟨⟨node, ht⟩, h.isRunning, h.notFound⟩
    rcases h.step hb ht hs hdelete with h | h
    · exact Or.inl h
    · exact Or.inr (Or.inl h)
  · exact Or.inr (h.step hb ht hs)
  · exact Or.inr (Or.inr (h.step ht hs))

/-- After it was. -/
def Lost (dead : UUID) (p : State) : Prop := Basics dead p ∧ Over dead 0 p

lemma Lost.step {i : ℕ} (h : Lost dead p) (hstep : step p i = some p') : Lost dead p' := by
  obtain ⟨t, t', s', ht, hs, rfl⟩ := step_cases h.1 hstep
  exact ⟨h.1.step ht hs, h.2.step ht hs⟩

lemma lost_of_early {i : ℕ} (h : Phase dead p ∨ Lost dead p) (hearly : EarlyDelete dead p i)
    (hstep : step p i = some p') : Lost dead p' := by
  obtain ⟨⟨node, hdelete⟩, hrunning, hnot⟩ := hearly
  have hphase : Basics dead p ∧ Untouched dead p := by
    rcases h with ⟨hb, h | h | h⟩ | ⟨-, h⟩
    · exact ⟨hb, h⟩
    · obtain ⟨t, ht, hfound⟩ := h.found
      rw [hnot t ht] at hfound
      contradiction
    · exact absurd hrunning h.notRunning
    · exact absurd hrunning h.notRunning
  obtain ⟨t, ht, rfl⟩ := Pool.step_run hstep
  obtain rfl := Option.some.inj (ht.symm.trans hdelete)
  exact ⟨hphase.1.step ht (step_exec hphase.1.keyed (hphase.1.ok _ (mem_of_getElem? ht))),
    hphase.2.early⟩

variable {s₀ : NodeCache} {node : MqttNode} {survivors : ℕ} {moves : List ℕ}

lemma mem_initial {t : Task} (h : t ∈ (initial s₀ dead survivors node).tasks) :
    t = .nodeEvent dead .lock ∨ t = .initNode node (.query (decide (survivors = 0))) := by
  rcases mem_append.1 h with h | h
  · exact Or.inl (eq_of_mem_replicate h)
  · exact Or.inr (mem_singleton.1 h)

lemma phase_initial (h : Before s₀ dead node) (hpos : 0 < survivors) :
    Phase dead (initial s₀ dead survivors node) := by
  have hfirst : decide (survivors = 0) = false := by
    rw [decide_eq_false_iff_not]
    omega
  refine ⟨⟨h.keyed, fun t ht => ?_, ?_⟩, Or.inl ⟨h.running, h.destroyed, ?_, ?_, ?_⟩⟩
  · rcases mem_initial ht with rfl | rfl
    · exact ⟨rfl, by simp⟩
    · exact ⟨h.new, by simp [hfirst], by simp, by simp⟩
  · have hinside : (initial s₀ dead survivors node).tasks.countP Task.inside = 0 := by
      rw [countP_eq_zero]
      intro t ht
      rcases mem_initial ht with rfl | rfl
      · simp [Task.inside]
      · simp [Task.inside]
    show _ = _
    rw [hinside]
    simp [isLocked, initial, h.locks]
  · intro t ht
    rcases mem_initial ht with rfl | rfl
    · rfl
    · rfl
  · intro t ht
    rcases mem_initial ht with rfl | rfl
    · simp
    · simp
  · refine ⟨.nodeEvent dead .lock, mem_append_left _ ?_, rfl⟩
    exact mem_replicate.2 ⟨by omega, rfl⟩

/-- Without survivors there is only `initNode` of a first node. -/
def First (dead : UUID) (p : State) : Prop :=
  (∃ node place, p.tasks = [.initNode node place] ∧
      (place = .query true ∨ place = .clear ∨ place = .destroyAll) ∧
      p.shared.cleanups dead = 0) ∨
    ((∃ node, p.tasks = [.initNode node .save]) ∨ p.tasks = [.done]) ∧ p.shared.cleanups dead = 1

lemma First.step {i : ℕ} (h : First dead p) (hstep : step p i = some p') : First dead p' := by
  obtain ⟨t, ht, rfl⟩ := Pool.step_run hstep
  have honly : ∀ u, p.tasks = [u] → u = t ∧ ∀ t', p.tasks.set i t' = [t'] := by
    intro u htasks
    rw [htasks] at ht ⊢
    cases i with
    | zero => exact ⟨Option.some.inj ht, fun t' => rfl⟩
    | succ i => exact absurd ht (by simp)
  rcases h with ⟨node, place, htasks, hplace, hcleanups⟩ | ⟨htasks, hcleanups⟩
  · obtain ⟨rfl, hset⟩ := honly _ htasks
    rcases hplace with rfl | rfl | rfl
    · exact Or.inl ⟨node, .clear, hset _, Or.inr (Or.inl rfl), hcleanups⟩
    · exact Or.inl ⟨node, .destroyAll, hset _, Or.inr (Or.inr rfl), hcleanups⟩
    · refine Or.inr ⟨Or.inl ⟨node, hset _⟩, ?_⟩
      simpa [exec, execInit, NodeCache.cleanups, destroyTransientSessions] using hcleanups
  · rcases htasks with ⟨node, htasks⟩ | htasks
    · obtain ⟨rfl, hset⟩ := honly _ htasks
      refine Or.inr ⟨Or.inr (hset _), ?_⟩
      have hsame : (p.shared.saveIfAbsent node).destroyed = p.shared.destroyed := by
        simp only [saveIfAbsent]
        split_ifs
        · rfl
        · rfl
      simp only [exec, execInit, NodeCache.cleanups, hsame]
      exact hcleanups
    · obtain ⟨rfl, hset⟩ := honly _ htasks
      exact Or.inr ⟨Or.inr (hset _), hcleanups⟩

lemma First.not_early {i : ℕ} (h : First dead p) : ¬EarlyDelete dead p i := by
  rintro ⟨⟨node, ht⟩, -, -⟩
  have hmem := mem_of_getElem? ht
  rcases h with ⟨node', place, htasks, hplace, -⟩ | ⟨⟨node', htasks⟩ | htasks, -⟩
  · rw [htasks, mem_singleton] at hmem
    cases hmem
    simp at hplace
  · rw [htasks, mem_singleton] at hmem
    cases hmem
  · rw [htasks, mem_singleton] at hmem
    cases hmem

lemma first_initial (h : Before s₀ dead node) : First dead (initial s₀ dead 0 node) :=
  Or.inl ⟨node, .query true, rfl, Or.inl rfl, h.destroyed⟩

/-- The sessions of the node are destroyed once, unless its record is deleted before a survivor has
found that the node was running; then they stay. -/
theorem cleaned_iff (h : Before s₀ dead node)
    (hrun : run step (initial s₀ dead survivors node) moves = some p)
    (hdone : Finished survivors p) : p.shared.cleanups dead = 1 ↔
      ¬SomeStep step (EarlyDelete dead) (initial s₀ dead survivors node) moves := by
  rcases Nat.eq_zero_or_pos survivors with rfl | hpos
  · have hnever : AllSteps step (fun p i => ¬EarlyDelete dead p i) (initial s₀ dead 0 node)
        moves := by
      refine (allSteps_congr (P := fun _ _ => True) (fun _ _ _ => First.step)
        (fun _ _ hp => iff_of_true trivial hp.not_early) (first_initial h)).1 (allSteps_true _ _)
    refine iff_of_true ?_ (not_someStep.2 hnever)
    rcases invariant_run (P := fun _ _ => True) (fun _ _ _ _ hp _ => First.step hp)
      (first_initial h) (allSteps_true _ _) hrun with ⟨node', place, htasks, -, -⟩ | ⟨-, hcleanups⟩
    · have hlast := hdone.2 rfl (.initNode node' place) (by rw [htasks]; exact mem_cons_self)
      contradiction
    · exact hcleanups
  · have hinit := phase_initial h hpos
    constructor
    · intro hcleanups hsome
      have hlost := established_run (P := fun _ _ => True)
        (I := fun p => Phase dead p ∨ Lost dead p) (J := Lost dead) ?_
        (fun p i p' hp _ hearly => lost_of_early hp hearly)
        (fun p i p' hp _ => hp.step) (Or.inl hinit) (allSteps_true _ _) hsome hrun
      · have hzero := hlost.2.cleanups
        omega
      · intro p i p' hp _ hstep
        rcases hp with hp | hp
        · by_cases hearly : EarlyDelete dead p i
          · exact Or.inr (lost_of_early (Or.inl hp) hearly hstep)
          · exact Or.inl (hp.step hearly hstep)
        · exact Or.inr (hp.step hstep)
    · intro hnever
      obtain ⟨-, hphase⟩ := invariant_run (fun _ _ _ _ hp hearly => Phase.step hp hearly) hinit
        (not_someStep.1 hnever) hrun
      rcases hphase with hphase | hphase | hphase
      · obtain ⟨t, ht, hhandler⟩ := hphase.handler
        rw [hdone.1 t ht] at hhandler
        contradiction
      · obtain ⟨t, ht, hfound⟩ := hphase.found
        have hhandler := isHandler_of_found hfound
        rw [hdone.1 t ht] at hhandler
        contradiction
      · exact hphase.cleanups

/-- The record of a node that is gone. -/
def sampleCache : NodeCache where
  cache := (∅ : PlainMap UUID MqttNode).put 1 ⟨1, "i".toList, "a".toList, .Running⟩
  locks := []
  destroyed := []

def sampleNode : MqttNode := ⟨2, "i".toList, "a".toList, .Running⟩

lemma before_sample : Before sampleCache 1 sampleNode where
  keyed := by
    intro nodeId stored hget
    rcases PlainMap.eq_or_get_of_get_put _ hget with ⟨rfl, rfl⟩ | hget
    · rfl
    · exact absurd hget (by simp)
  running := ⟨⟨1, "i".toList, "a".toList, .Running⟩, rfl, rfl⟩
  locks := rfl
  destroyed := rfl
  new := by decide

/-- The survivor is first, and the instance starts again after it. -/
theorem cleaned_iff_sample : ∃ p,
    run step (initial sampleCache 1 1 sampleNode) [0, 0, 0, 0, 0, 0, 0, 1, 1, 1] = some p ∧
      (p.shared.cleanups 1 = 1 ↔ ¬SomeStep step (EarlyDelete 1)
        (initial sampleCache 1 1 sampleNode) [0, 0, 0, 0, 0, 0, 0, 1, 1, 1]) := by
  obtain ⟨p, hp⟩ : ∃ p, run step (initial sampleCache 1 1 sampleNode)
      [0, 0, 0, 0, 0, 0, 0, 1, 1, 1] = some p := ⟨_, rfl⟩
  have hdone : Finished 1 p := by
    cases hp
    exact ⟨by decide, by decide⟩
  exact ⟨p, hp, cleaned_iff before_sample hp hdone⟩

/-- The instance starts again before the survivor looks for the record. -/
theorem never_cleaned : ∃ p, Before sampleCache 1 sampleNode ∧
    run step (initial sampleCache 1 1 sampleNode) [1, 1, 1, 0] = some p ∧ Finished 1 p ∧
      p.shared.cleanups 1 = 0 :=
  ⟨_, before_sample, rfl, ⟨by decide, by decide⟩, rfl⟩

end NodeCleanup

end Stuart
