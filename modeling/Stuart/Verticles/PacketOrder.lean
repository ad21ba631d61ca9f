/-
The order in which the packets of one connection take effect.

When conflicting tasks take turns, the routers end up as if the packets had been handled one after
the other (`Inv`), and every PUBLISH is handed over once for each of its routes, in the order of
arrival (`Handed`).  What is handed over to a connected subscriber is transmitted or queued there:
that is said about its session in the brokers before and after.
-/
import Stuart.Verticles.PacketTasks

namespace Stuart

open List Lib TopicUtil AuthUtil

namespace PacketOrder

variable {id : ℕ} {v v' : Verticle} {task : Task} {outcome : Outcome} {packets : List Packet}
  {tasks : List Task} {handed : List Handover} {i : ℕ} {accesses : List RouterAccess}

/-! ### One packet after the other -/

/-- A packet that is handled to its end. -/
def handle (id : ℕ) (v : Verticle) : Packet → Verticle
  | .publish message _ => v.handlePublish id message
  | .subscribe subs => (v.handleSubscribe id subs).2
  | .unsubscribe topics => v.handleUnsubscribe id topics

def sequential (id : ℕ) (v : Verticle) (packets : List Packet) : Verticle :=
  packets.foldl (handle id) v

lemma writes_handle (id : ℕ) (v : Verticle) (packet : Packet) (number : ℕ) :
    v.Writes (handle id v packet) ((packet.job number).accesses id v) := by
  cases packet with
  | publish message qos => exact Verticle.writes_handlePublish v id message
  | subscribe subs =>
      cases hclient : v.client id with
      | none =>
          simp only [handle, Verticle.handleSubscribe, Packet.job, Job.accesses, hclient]
          exact .refl v
      | some client =>
          simp only [handle, Packet.job, Job.accesses, hclient]
          exact Verticle.writes_handleSubscribe hclient subs
  | unsubscribe topics =>
      cases hclient : v.client id with
      | none =>
          simp only [handle, Verticle.handleUnsubscribe, Packet.job, Job.accesses, hclient]
          exact .refl v
      | some client =>
          simp only [handle, Packet.job, Job.accesses, hclient]
          exact Verticle.writes_handleUnsubscribe hclient topics

lemma exists_writes_sequential (id : ℕ) (v : Verticle) (packets : List Packet) :
    ∃ accesses, v.Writes (sequential id v packets) accesses := by
  induction packets using reverseRecOn with
  | nil => exact ⟨[], .refl v⟩
  | append_singleton packets packet ih =>
      obtain ⟨accesses, h⟩ := ih
      have hlast : (sequential id v packets).Writes (sequential id v (packets ++ [packet]))
          ((packet.job 0).accesses id (sequential id v packets)) := by
        simp only [sequential, foldl_append, foldl_cons, foldl_nil]
        exact writes_handle id _ packet 0
      exact ⟨_, h.trans hlast⟩

/-! ### The client of the connection -/

/-- The client of the connection, as its wrapper has it. -/
def own (id : ℕ) (v : Verticle) : Option Str :=
  (v.client id).bind fun client => v.broker.wrapperClient client.clientId

/-- A job accesses routers of the client of the connection. -/
lemma own_of_access {job : Job} {access : RouterAccess} (h : access ∈ job.accesses id v) :
    own id v = some access.key.clientId := by
  cases job with
  | publish number message => exact absurd h not_mem_nil
  | handOver number message route => exact absurd h not_mem_nil
  | subscribe subs =>
      simp only [Job.accesses] at h
      split at h
      · exact absurd h not_mem_nil
      · rename_i client hclient
        simp only [own, hclient, Option.bind_some]
        cases hwrapper : v.broker.wrapperClient client.clientId with
        | none =>
            rw [hwrapper] at h
            exact absurd h not_mem_nil
        | some clientId =>
            rw [hwrapper] at h
            obtain ⟨result, -, rfl⟩ := mem_map.1 h
            rfl
  | unsubscribe topics =>
      simp only [Job.accesses] at h
      split at h
      · exact absurd h not_mem_nil
      · rename_i client hclient
        simp only [own, hclient, Option.bind_some]
        cases hwrapper : v.broker.wrapperClient client.clientId with
        | none =>
            rw [hwrapper] at h
            exact absurd h not_mem_nil
        | some clientId =>
            rw [hwrapper] at h
            obtain ⟨topic, -, rfl⟩ := mem_map.1 h
            rfl

/-- From `v` to `v'` only routers of that client are accessed. -/
def OwnWrites (id : ℕ) (v v' : Verticle) : Prop :=
  ∃ accesses, v.Writes v' accesses ∧ ∀ access ∈ accesses, own id v = some access.key.clientId

lemma ownWrites_refl (id : ℕ) (v : Verticle) : OwnWrites id v v :=
  ⟨[], .refl v, fun _ h => absurd h not_mem_nil⟩

lemma OwnWrites.trans {v'' : Verticle} (h : OwnWrites id v v') (hwrites : v'.Writes v'' accesses)
    (hown : ∀ access ∈ accesses, own id v = some access.key.clientId) : OwnWrites id v v'' := by
  obtain ⟨before, hbefore, howns⟩ := h
  refine ⟨before ++ accesses, hbefore.trans hwrites, fun access hmem => ?_⟩
  rcases mem_append.1 hmem with hmem | hmem
  · exact howns access hmem
  · exact hown access hmem

/-- The routers of another client stay. -/
lemma OwnWrites.get (h : OwnWrites id v v') (hv : v.routerCache.Consistent) {clientId : Str}
    (hne : own id v ≠ some clientId) (topic : Str) :
    v'.routerCache.routerCache.get ⟨clientId, topic⟩ =
      v.routerCache.routerCache.get ⟨clientId, topic⟩ := by
  obtain ⟨accesses, hwrites, howns⟩ := h
  refine (hwrites.broker.get hv ⟨clientId, topic⟩).trans ?_
  clear hwrites
  induction accesses with
  | nil => rfl
  | cons access accesses ih =>
      rw [foldl_cons, RouterAccess.apply_of_ne]
      · exact ih fun access' hmem => howns access' (mem_cons_of_mem _ hmem)
      · intro hkey
        refine hne ((howns access mem_cons_self).trans ?_)
        rw [hkey]

/-! ### What a PUBLISH is handed over to -/

/-- The routes of a message to a client: one for each of its routers that match. -/
def targets (v : Verticle) (message : MqttPublishMessage) (clientId : Str) : List MqttRoute :=
  (v.routerCache.matching clientId message.topicName).map
    (RouterCache.route v.config.isSessionUpgradeQos message.qosLevel.value)

/-- These are the routes of a message to every other client.  Words and levels of a topic that ends
in two empty levels differ, and its routes to one client may depend on the filters of another. -/
def Covers (id : ℕ) (v : Verticle) (message : MqttPublishMessage) (routes : List MqttRoute) :
    Prop :=
  ¬endsInEmptyLevels message.topicName → ∀ clientId, own id v ≠ some clientId →
    routes.filter (fun route => route.clientId = clientId) ~ targets v message clientId

/-- The routes that tasks were started for, by the place of the task of the PUBLISH. -/
def Routed (id : ℕ) (v : Verticle) (message : MqttPublishMessage) (started : List MqttRoute) :
    Place → Prop
  | .start => started = []
  | .retaining | .routing => Admits id v message ∧ started = []
  | .handing routes => Admits id v message ∧ Covers id v message (started ++ routes)
  | .done => (Admits id v message → Covers id v message started) ∧
      (¬Admits id v message → started = [])
  | .subscribing .. | .subscribed .. | .unsubscribing .. => False

/-- The route that a task for the PUBLISH of this number was started for. -/
def Task.startedFor (number : ℕ) (task : Task) : Option MqttRoute :=
  match task.job with
  | .handOver number' _ route => if number' = number then some route else none
  | _ => none

def startedFor (number : ℕ) (tasks : List Task) : List MqttRoute :=
  tasks.filterMap (Task.startedFor number)

/-- What a task has handed over. -/
def Task.finished (task : Task) : Option (ℕ × MqttRoute) :=
  match task.job with
  | .handOver number _ route => if task.place.isDone then some (number, route) else none
  | _ => none

def Handover.key (handover : Handover) : ℕ × MqttRoute := (handover.number, handover.route)

/-- The tasks that a step starts. -/
def starts (started : Option Job) : List Task := started.toList.map fun job => ⟨job, .start⟩

lemma admits_congr (h : v.Writes v' accesses) (message : MqttPublishMessage) :
    Admits id v' message ↔ Admits id v message := by
  have hresult : ∀ client, v'.checkResult client message.topicName =
      v.checkResult client message.topicName := by
    intro client
    simp only [Verticle.checkResult, h.authService]
  simp only [Admits, h.client, h.config, hresult]

/-- What `getRoutes` returns while the packets are handled. -/
lemma OwnWrites.covers (h : OwnWrites id v v') (hv : v.routerCache.Consistent)
    {message : MqttPublishMessage} (ht : checkPublishTopic message.topicName = true) :
    Covers id v message (v'.routerCache.getRoutes v'.config.isSessionUpgradeQos message.topicName
      message.qosLevel.value) := by
  intro hclean clientId hne
  have hperm := h.get hv hne
  obtain ⟨accesses, hwrites, -⟩ := h
  have hv' : v'.routerCache.Consistent := hwrites.broker.consistent hv
  rw [hv'.filter_getRoutes _ ht hclean, hwrites.config]
  exact (hv.matching_perm hv' hperm message.topicName).map _

/-- A step of the task of a PUBLISH. -/
lemma routed_exec (hv : v.routerCache.Consistent) (hown : OwnWrites id v v') {number : ℕ}
    {message : MqttPublishMessage} {place : Place} {started : List MqttRoute}
    (hexec : exec id v' ⟨.publish number message, place⟩ = some outcome)
    (h : Routed id v message started place) :
    Routed id v message (started ++ startedFor number (starts outcome.started)) outcome.place := by
  have hadmits : Admits id v' message ↔ Admits id v message := by
    obtain ⟨accesses, hwrites, -⟩ := hown
    exact admits_congr hwrites message
  cases place with
  | start =>
      have hnone : started = [] := h
      have hdone : ¬Admits id v' message →
          Routed id v message (started ++ startedFor number (starts none)) .done := by
        intro hnot
        exact ⟨fun ha => absurd (hadmits.2 ha) hnot, fun _ => (append_nil _).trans hnone⟩
      simp only [exec] at hexec
      cases hclient : v'.client id with
      | none =>
          rw [hclient] at hexec
          obtain rfl := Option.some.inj hexec
          refine hdone ?_
          rintro ⟨client, hsome, -⟩
          exact absurd (hclient.symm.trans hsome) (by simp)
      | some client =>
          rw [hclient] at hexec
          dsimp only at hexec
          split_ifs at hexec with htopic haccess
          · obtain rfl := Option.some.inj hexec
            refine hdone ?_
            rintro ⟨client', -, ht, -⟩
            simp [ht] at htopic
          · obtain rfl := Option.some.inj hexec
            refine hdone ?_
            rintro ⟨client', hsome, -, hcan⟩
            obtain rfl := Option.some.inj (hclient.symm.trans hsome)
            simp [hcan] at haccess
          · obtain rfl := Option.some.inj hexec
            refine ⟨hadmits.1 ⟨client, hclient, ?_, ?_⟩, (append_nil _).trans hnone⟩
            · simpa using htopic
            · simpa using haccess
  | retaining =>
      obtain rfl := Option.some.inj hexec
      exact ⟨h.1, (append_nil _).trans h.2⟩
  | routing =>
      obtain rfl := Option.some.inj hexec
      obtain ⟨ha, rfl⟩ := h
      have ht : checkPublishTopic message.topicName = true := by
        obtain ⟨client, -, ht, -⟩ := ha
        exact ht
      exact ⟨ha, hown.covers hv ht⟩
  | handing routes =>
      obtain ⟨ha, hcovers⟩ := h
      cases routes with
      | nil =>
          obtain rfl := Option.some.inj hexec
          exact ⟨fun _ => hcovers, fun hnot => absurd ha hnot⟩
      | cons route routes =>
          obtain rfl := Option.some.inj hexec
          refine ⟨ha, ?_⟩
          have hone : startedFor number (starts (some (.handOver number message route))) =
              [route] := by simp [starts, startedFor, Task.startedFor]
          rw [hone, append_assoc]
          exact hcovers
  | _ => cases hexec

/-! ### The invariant -/

/-- The routers that are stored, with the accesses that are pending, are those that the packets
lead to one after the other. -/
structure Inv (id : ℕ) (v : Verticle) (s : State) : Prop where
  writes : OwnWrites id v s.verticle
  consistent : s.verticle.routerCache.Consistent
  jobs : Jobs id v s.packets s.tasks s.handed
  order : InOrder s.handed
  rest : ∀ task ∈ s.tasks, task.accesses id v ⊆ task.job.accesses id v
  stored : ∀ key, (pending (Task.accesses id v) s.tasks).foldl (RouterAccess.apply key)
    (s.verticle.routerCache.routerCache.get key) =
      (sequential id v s.packets).routerCache.routerCache.get key

variable {s s' : State} {place : Place}

lemma inv_start (h : v.routerCache.Consistent) : Inv id v (start v) where
  writes := ownWrites_refl id v
  consistent := h
  jobs := jobs_nil id v
  order := Pairwise.nil
  rest := fun _ htask => absurd htask not_mem_nil
  stored := fun _ => rfl

/-- Something happens that leaves the routers alone. -/
lemma Inv.frame (h : Inv id v s) (hwrites : s.verticle.Writes v' []) :
    Inv id v { s with verticle := v' } where
  writes := h.writes.trans hwrites fun _ hmem => absurd hmem not_mem_nil
  consistent := hwrites.broker.consistent h.consistent
  jobs := h.jobs
  order := h.order
  rest := h.rest
  stored := by
    intro key
    have hget : v'.routerCache.routerCache.get key = s.verticle.routerCache.routerCache.get key :=
      hwrites.broker.get h.consistent key
    rw [hget]
    exact h.stored key

/-- The earlier tasks that a task conflicts with are done when it takes a step. -/
lemma Inv.turn (h : Inv id v s) (hturn : Turn id s (.run i)) (htask : s.tasks[i]? = some task) :
    ∀ j other, j < i → s.tasks[j]? = some other → other.job.Conflicts id v task.job →
      other.place.isDone = true := by
  intro j other hji hother hconf
  cases hstart : task.place.isStart with
  | true =>
      obtain ⟨accesses, hwrites, -⟩ := h.writes
      refine hturn task htask hstart j hji other hother ?_
      rw [conflicts_congr hwrites]
      exact hconf
  | false => exact h.jobs.turns j i other task hji hother htask hconf hstart

lemma rest_set (h : ∀ task ∈ s.tasks, task.accesses id v ⊆ task.job.accesses id v)
    (htask : s.tasks[i]? = some task)
    (hsub : Task.accesses id v ⟨task.job, place⟩ ⊆ task.accesses id v) :
    ∀ task' ∈ s.tasks.set i ⟨task.job, place⟩, task'.accesses id v ⊆ task'.job.accesses id v := by
  intro task' hmem
  rcases mem_or_eq_of_mem_set hmem with hold | rfl
  · exact h task' hold
  · exact Subset.trans hsub (h task (mem_of_getElem? htask))

lemma rest_concat (h : ∀ task ∈ tasks, task.accesses id v ⊆ task.job.accesses id v) (job : Job) :
    ∀ task ∈ tasks ++ [⟨job, .start⟩], task.accesses id v ⊆ task.job.accesses id v := by
  intro task hmem
  rcases mem_append.1 hmem with hmem | hmem
  · exact h task hmem
  · obtain rfl := mem_singleton.1 hmem
    exact Subset.refl _

/-- A task takes a step that leaves the routers alone. -/
lemma Inv.advance (h : Inv id v s) (place : Place) (hturn : Turn id s (.run i))
    (htask : s.tasks[i]? = some task)
    (hdone : task.place.isDone = false) (hstart : place.isStart = false)
    (haccesses : Task.accesses id v ⟨task.job, place⟩ = task.accesses id v) :
    Inv id v { s with tasks := s.tasks.set i ⟨task.job, place⟩ } where
  writes := h.writes
  consistent := h.consistent
  jobs := h.jobs.set htask hdone hstart (h.turn hturn htask)
  order := h.order
  rest := by
    refine rest_set h.rest htask ?_
    rw [haccesses]
    exact Subset.refl _
  stored := by
    intro key
    rw [pending_set_of_eq htask haccesses]
    exact h.stored key

/-- A task accesses a router: the pending accesses of the tasks before it are to others. -/
lemma Inv.access (h : Inv id v s) (hturn : Turn id s (.run i)) (htask : s.tasks[i]? = some task)
    (hdone : task.place.isDone = false) (hstart : place.isStart = false) {access : RouterAccess}
    (hwrites : s.verticle.Writes v' [access])
    (haccesses : task.accesses id v = access :: Task.accesses id v ⟨task.job, place⟩) :
    Inv id v { s with verticle := v', tasks := s.tasks.set i ⟨task.job, place⟩ } where
  writes := by
    refine h.writes.trans hwrites fun access' hmem => ?_
    obtain rfl := mem_singleton.1 hmem
    exact own_of_access (h.rest task (mem_of_getElem? htask) (haccesses ▸ mem_cons_self))
  consistent := hwrites.broker.consistent h.consistent
  jobs := h.jobs.set htask hdone hstart (h.turn hturn htask)
  order := h.order
  rest := by
    refine rest_set h.rest htask ?_
    rw [haccesses]
    exact subset_cons_self _ _
  stored := by
    intro key
    have hget : v'.routerCache.routerCache.get key =
        access.apply key (s.verticle.routerCache.routerCache.get key) :=
      hwrites.broker.get h.consistent key
    rw [hget, foldl_pending_set (fun k a x => RouterAccess.apply_of_ne k a x) htask haccesses]
    · exact h.stored key
    · intro j other hji hother a ha hkey
      have hown : access ∈ task.job.accesses id v :=
        h.rest task (mem_of_getElem? htask) (haccesses ▸ mem_cons_self)
      have hconf := conflicts_of_key (h.rest other (mem_of_getElem? hother) ha) hown hkey
      have hend := h.turn hturn htask j other hji hother hconf
      rw [accesses_of_isDone hend] at ha
      exact absurd ha not_mem_nil

/-- A packet arrives: what its task will do comes after everything that is pending. -/
lemma Inv.receive (h : Inv id v s) (hv : v.routerCache.Consistent) (packet : Packet) :
    Inv id v { s with
      packets := s.packets ++ [packet]
      tasks := s.tasks ++ [⟨packet.job s.packets.length, .start⟩] } where
  writes := h.writes
  consistent := h.consistent
  jobs := h.jobs.receive packet
  order := h.order
  rest := rest_concat h.rest _
  stored := by
    intro key
    obtain ⟨accesses, hwrites⟩ := exists_writes_sequential id v s.packets
    have hlast := writes_handle id (sequential id v s.packets) packet s.packets.length
    rw [jobAccesses_congr hwrites] at hlast
    have hget : (sequential id v (s.packets ++ [packet])).routerCache.routerCache.get key =
        ((packet.job s.packets.length).accesses id v).foldl (RouterAccess.apply key)
          ((sequential id v s.packets).routerCache.routerCache.get key) := by
      simp only [sequential, foldl_append, foldl_cons, foldl_nil]
      exact hlast.broker.get (hwrites.broker.consistent hv) key
    rw [hget, pending_concat, foldl_append, h.stored key]
    rfl

/-- A PUBLISH starts the task for one of its routes. -/
lemma Inv.startRoute (h : Inv id v s) {number : ℕ} {message : MqttPublishMessage}
    {routes : List MqttRoute}
    (htask : s.tasks[i]? = some ⟨.publish number message, .handing routes⟩) (route : MqttRoute) :
    Inv id v { s with tasks := s.tasks ++ [⟨.handOver number message route, .start⟩] } where
  writes := h.writes
  consistent := h.consistent
  jobs := h.jobs.start htask rfl rfl rfl route
  order := h.order
  rest := rest_concat h.rest _
  stored := by
    intro key
    rw [pending_concat, foldl_append]
    exact h.stored key

lemma Inv.run (h : Inv id v s) (hturn : Turn id s (.run i)) (hstep : step id s (.run i) = some s') :
    Inv id v s' := by
  obtain ⟨task, htask, hmap⟩ := Option.bind_eq_some_iff.1 hstep
  obtain ⟨outcome, hexec, rfl⟩ := Option.map_eq_some_iff.1 hmap
  have hdone := isDone_of_exec hexec
  obtain ⟨accesses, hwrites, -⟩ := h.writes
  cases effect_exec hexec with
  | quiet v' place hjob hstart hquiet hworking haccesses =>
      rw [taskAccesses_congr hwrites] at haccesses
      simpa [handover_of_not hjob] using
        (h.advance place hturn htask hdone hstart haccesses).frame hquiet
  | access v' place access hjob hstart haccess hworking haccesses =>
      rw [taskAccesses_congr hwrites] at haccesses
      simpa [handover_of_not hjob] using h.access hturn htask hdone hstart haccess haccesses
  | started number message route routes hroute =>
      subst hroute
      have hset := h.advance (.handing routes) hturn htask hdone rfl rfl
      have hself : (s.tasks.set i ⟨.publish number message, .handing routes⟩)[i]? =
          some ⟨.publish number message, .handing routes⟩ := by
        rw [getElem?_set_of_some htask, if_pos rfl]
      simpa [Task.handover] using hset.startRoute hself route
  | handed number message route hroute =>
      subst hroute
      have hwrite := Verticle.writes_withBroker (v := s.verticle)
        (Broker.writes_handleLocalPublishMessage s.verticle.broker route.clientId
          message.convert2MqttMessage (MqttQoS.valueOf route.qos))
      have hset := (h.advance .done hturn htask hdone rfl rfl).frame hwrite
      have hself : (⟨.handOver number message route, .done⟩ : Task) ∈
          s.tasks.set i ⟨.handOver number message route, .done⟩ := by
        refine mem_iff_getElem?.2 ⟨i, ?_⟩
        rw [getElem?_set_of_some htask, if_pos rfl]
      have hjobs (after : Broker) :
          Jobs id v s.packets (s.tasks.set i ⟨.handOver number message route, .done⟩)
            (s.handed ++ [⟨number, message, route, s.verticle.broker, after⟩]) :=
        hset.jobs.hand hself
      have horder (after : Broker) :
          InOrder (s.handed ++ [⟨number, message, route, s.verticle.broker, after⟩]) :=
        h.jobs.inOrder_concat h.order htask
      simpa [Task.handover] using (⟨hset.writes, hset.consistent, hjobs _, horder _, hset.rest,
        hset.stored⟩ : Inv id v { s with
          verticle := _
          tasks := s.tasks.set i ⟨.handOver number message route, .done⟩
          handed := s.handed ++ [⟨number, message, route, s.verticle.broker, _⟩] })

lemma Inv.step (h : Inv id v s) (hv : v.routerCache.Consistent) {action : Action}
    (hturn : Turn id s action) (hstep : step id s action = some s') : Inv id v s' := by
  cases action with
  | receive packet =>
      obtain rfl := Option.some.inj hstep
      exact h.receive hv packet
  | run index => exact h.run hturn hstep
  | call clientId method =>
      obtain rfl := Option.some.inj hstep
      exact h.frame (Verticle.writes_withBroker (Broker.writes_onRegistered _ clientId _))
  | publish clientId message qos =>
      obtain rfl := Option.some.inj hstep
      exact h.frame (Verticle.writes_withBroker
        (Broker.writes_handleLocalPublishMessage _ clientId message qos))

/-! ### What is handed over -/

/-- Every message is handed over to a broker that works, and to the routes of its PUBLISH. -/
structure Handed (id : ℕ) (v : Verticle) (s : State) : Prop where
  working : s.verticle.broker.Working
  noted : ∀ handover ∈ s.handed, handover.before.Working ∧
    handover.after = handover.before.handleLocalPublishMessage handover.route.clientId
      handover.message.convert2MqttMessage (MqttQoS.valueOf handover.route.qos)
  performed : s.handed.map Handover.key ~ s.tasks.filterMap Task.finished
  routed : ∀ task ∈ s.tasks, ∀ number message, task.job = .publish number message →
    Routed id v message (startedFor number s.tasks) task.place

lemma handed_start (h : v.broker.Working) : Handed id v (start v) where
  working := h
  noted := fun _ hmem => absurd hmem not_mem_nil
  performed := Perm.refl _
  routed := fun _ hmem => absurd hmem not_mem_nil

lemma startedFor_append (number : ℕ) (tasks tasks' : List Task) :
    startedFor number (tasks ++ tasks') = startedFor number tasks ++ startedFor number tasks' :=
  filterMap_append

lemma finished_of_not (task : Task) (h : task.job.isHandOver = false) : task.finished = none := by
  obtain ⟨job, place⟩ := task
  cases job with
  | handOver number message route => cases h
  | _ => rfl

/-- Another broker that works, and nothing else. -/
lemma Handed.frame (h : Handed id v s) (hworking : v'.broker.Working) :
    Handed id v { s with verticle := v' } := ⟨hworking, h.noted, h.performed, h.routed⟩

/-- A packet arrives: nothing was started for it yet. -/
lemma Handed.receive (h : Handed id v s) (hI : Inv id v s) (packet : Packet) :
    Handed id v { s with
      packets := s.packets ++ [packet]
      tasks := s.tasks ++ [⟨packet.job s.packets.length, .start⟩] } where
  working := h.working
  noted := h.noted
  performed := by
    have hnone : Task.finished ⟨packet.job s.packets.length, .start⟩ = none := by
      cases packet <;> rfl
    simp only [filterMap_append, filterMap_cons_none hnone, filterMap_nil, append_nil]
    exact h.performed
  routed := by
    intro task hmem number message hjob
    have hnew : Task.startedFor number ⟨packet.job s.packets.length, .start⟩ = none := by
      cases packet <;> rfl
    have hsame : startedFor number (s.tasks ++ [⟨packet.job s.packets.length, .start⟩]) =
        startedFor number s.tasks := by
      rw [startedFor_append, startedFor, startedFor, filterMap_cons_none hnew, filterMap_nil,
        append_nil]
    rw [hsame]
    rcases mem_append.1 hmem with hmem | hmem
    · exact h.routed task hmem number message hjob
    · obtain rfl := mem_singleton.1 hmem
      obtain rfl : s.packets.length = number := by
        cases packet with
        | publish message' qos => exact (Job.publish.inj hjob).1
        | subscribe subs => cases hjob
        | unsubscribe topics => cases hjob
      -- a task for one of its routes would have a source among the tasks
      refine filterMap_eq_nil_iff.2 fun other hother => ?_
      cases hroute : other.job with
      | handOver number' message' route =>
          simp only [Task.startedFor, hroute]
          refine if_neg ?_
          rintro rfl
          obtain ⟨source, hsource, hpublish, -⟩ := hI.jobs.source other hother _ _ route hroute
          obtain ⟨qos, hget⟩ := hI.jobs.publish source hsource _ _ hpublish
          exact absurd (List.getElem?_eq_some_iff.1 hget).1 (lt_irrefl _)
      | _ => simp only [Task.startedFor, hroute]

/-- The tasks that are started for one PUBLISH are none of another. -/
lemma startedFor_other (hI : Inv id v s) (htask : s.tasks[i]? = some task)
    (hexec : exec id s.verticle task = some outcome) {j : ℕ} {other : Task} (hne : j ≠ i)
    (hother : s.tasks[j]? = some other) {number : ℕ} {message : MqttPublishMessage}
    (hjob : other.job = .publish number message) :
    startedFor number (starts outcome.started) = [] := by
  rcases started_of_exec hexec with hnone | ⟨number', message', route, hpublish, hstarted⟩
  · rw [hnone]
    rfl
  · have hnumber : number' ≠ number := by
      rcases Nat.lt_or_gt_of_ne hne with hji | hij
      · exact (hI.jobs.sorted j i other task _ _ _ _ hji hother htask hjob hpublish).ne'
      · exact (hI.jobs.sorted i j task other _ _ _ _ hij htask hother hpublish hjob).ne
    rw [hstarted]
    simp [starts, startedFor, Task.startedFor, hnumber]

lemma Handed.routed_run (h : Handed id v s) (hI : Inv id v s) (hv : v.routerCache.Consistent)
    (htask : s.tasks[i]? = some task) (hexec : exec id s.verticle task = some outcome) :
    ∀ task' ∈ s.tasks.set i ⟨task.job, outcome.place⟩ ++ starts outcome.started,
      ∀ number message, task'.job = .publish number message → Routed id v message
        (startedFor number (s.tasks.set i ⟨task.job, outcome.place⟩ ++ starts outcome.started))
        task'.place := by
  intro task' hmem number message hjob
  have hset : startedFor number (s.tasks.set i ⟨task.job, outcome.place⟩) =
      startedFor number s.tasks := filterMap_set_of_eq htask rfl
  rw [startedFor_append, hset]
  rcases mem_append.1 hmem with hmem | hmem
  · obtain ⟨j, hj⟩ := mem_iff_getElem?.1 hmem
    rw [getElem?_set_of_some htask] at hj
    split_ifs at hj with hji
    · obtain rfl := Option.some.inj hj
      obtain ⟨job, place⟩ := task
      obtain rfl : job = .publish number message := hjob
      exact routed_exec hv hI.writes hexec (h.routed _ (mem_of_getElem? htask) _ _ rfl)
    · rw [startedFor_other hI htask hexec hji hj hjob, append_nil]
      exact h.routed task' (mem_of_getElem? hj) number message hjob
  · obtain ⟨job, hstarted, rfl⟩ := mem_map.1 hmem
    rcases started_of_exec hexec with hnone | ⟨number', message', route, -, hsome⟩
    · simp [hnone] at hstarted
    · obtain rfl : job = _ := by simpa [hsome] using hstarted
      cases hjob

lemma Handed.run (h : Handed id v s) (hI : Inv id v s) (hv : v.routerCache.Consistent)
    (hstep : step id s (.run i) = some s') : Handed id v s' := by
  obtain ⟨task, htask, hmap⟩ := Option.bind_eq_some_iff.1 hstep
  obtain ⟨outcome, hexec, rfl⟩ := Option.map_eq_some_iff.1 hmap
  have hrouted := h.routed_run hI hv htask hexec
  cases effect_exec hexec with
  | quiet v' place hjob hstart hquiet hworking haccesses =>
      refine ⟨hworking h.working, ?_, ?_, hrouted⟩
      · simpa [handover_of_not hjob] using h.noted
      · have hsame := filterMap_set_of_eq htask
          ((finished_of_not ⟨task.job, place⟩ hjob).trans (finished_of_not task hjob).symm)
        simpa [handover_of_not hjob, hsame] using h.performed
  | access v' place access hjob hstart haccess hworking haccesses =>
      refine ⟨hworking h.working, ?_, ?_, hrouted⟩
      · simpa [handover_of_not hjob] using h.noted
      · have hsame := filterMap_set_of_eq htask
          ((finished_of_not ⟨task.job, place⟩ hjob).trans (finished_of_not task hjob).symm)
        simpa [handover_of_not hjob, hsame] using h.performed
  | started number message route routes hroute =>
      subst hroute
      refine ⟨h.working, ?_, ?_, hrouted⟩
      · simpa [Task.handover] using h.noted
      · have hsame := filterMap_set_of_eq htask
          (rfl : Task.finished ⟨.publish number message, .handing routes⟩ = none)
        simpa [Task.handover, hsame, Task.finished, Place.isDone] using h.performed
  | handed number message route hroute =>
      subst hroute
      refine ⟨h.working.handleLocalPublishMessage _ _ _, ?_, ?_, hrouted⟩
      · intro handover hmem
        rcases mem_append.1 hmem with hmem | hmem
        · exact h.noted handover hmem
        · obtain rfl := mem_singleton.1 hmem
          exact ⟨h.working, rfl⟩
      · have hset := filterMap_set_perm htask rfl
          (rfl : Task.finished ⟨.handOver number message route, .done⟩ = some (number, route))
        simp only [Task.handover, Option.toList_some, map_append, map_cons, map_nil,
          Option.toList_none, append_nil]
        exact (perm_append_comm.trans (h.performed.cons _)).trans hset.symm

lemma Handed.step (h : Handed id v s) (hI : Inv id v s) (hv : v.routerCache.Consistent)
    {action : Action} (hstep : step id s action = some s') : Handed id v s' := by
  cases action with
  | receive packet =>
      obtain rfl := Option.some.inj hstep
      exact h.receive hI packet
  | run index => exact h.run hI hv hstep
  | call clientId method =>
      obtain rfl := Option.some.inj hstep
      exact h.frame (h.working.call clientId method)
  | publish clientId message qos =>
      obtain rfl := Option.some.inj hstep
      exact h.frame (h.working.handleLocalPublishMessage clientId message qos)

/-! ### Results -/

/-- The message of a PUBLISH that the handler lets through comes to a subscriber: a session that is
connected transmits or queues it. -/
structure Handover.Exact (id : ℕ) (v : Verticle) (packets : List Packet) (handover : Handover) :
    Prop where
  source : ∃ qos, packets[handover.number]? = some (.publish handover.message qos)
  admits : Admits id v handover.message
  gets : ∀ (kind : SessionKind) (w : SessionWrapper kind),
    handover.before.session handover.route.clientId = some ⟨kind, w⟩ →
      ∃ w' : SessionWrapper kind, handover.after.session handover.route.clientId = some ⟨kind, w'⟩ ∧
        w.Gets w' (w.copyMqttMessage handover.message.convert2MqttMessage
          (MqttQoS.valueOf handover.route.qos))

lemma Handed.exact (h : Handed id v s) (hI : Inv id v s) {handover : Handover}
    (hmem : handover ∈ s.handed) : handover.Exact id v s.packets := by
  have htask := hI.jobs.handed handover hmem
  obtain ⟨source, hsource, hpublish, -⟩ := hI.jobs.source _ htask _ _ handover.route rfl
  refine ⟨hI.jobs.publish source hsource _ _ hpublish, ?_, fun kind w hw => ?_⟩
  · -- a task was started for the PUBLISH
    have hstarted : handover.route ∈ startedFor handover.number s.tasks :=
      mem_filterMap.2 ⟨_, htask, if_pos rfl⟩
    have hrouted := h.routed source hsource _ _ hpublish
    by_contra hnot
    have hnone : startedFor handover.number s.tasks = [] := by
      cases hplace : source.place with
      | start => rw [hplace] at hrouted; exact hrouted
      | retaining => rw [hplace] at hrouted; exact absurd hrouted.1 hnot
      | routing => rw [hplace] at hrouted; exact absurd hrouted.1 hnot
      | handing routes => rw [hplace] at hrouted; exact absurd hrouted.1 hnot
      | done => rw [hplace] at hrouted; exact hrouted.2 hnot
      | _ => rw [hplace] at hrouted; exact hrouted.elim
    rw [hnone] at hstarted
    exact absurd hstarted not_mem_nil
  · obtain ⟨hworking, hafter⟩ := h.noted handover hmem
    rw [hafter]
    exact hworking.gets_handleLocalPublishMessage hw _ _

/-- What has been handed over of a PUBLISH, when all tasks are done. -/
lemma filter_finished (hdone : ∀ task ∈ tasks, task.place.isDone = true) (number : ℕ) :
    ((tasks.filterMap Task.finished).filter fun key => key.1 = number).map Prod.snd =
      startedFor number tasks := by
  induction tasks with
  | nil => rfl
  | cons task tasks ih =>
      have hrest := ih fun task' hmem => hdone task' (mem_cons_of_mem _ hmem)
      have hplace := hdone task mem_cons_self
      cases hjob : task.job with
      | handOver number' message route =>
          have hfinished : task.finished = some (number', route) := by
            simp only [Task.finished, hjob, hplace, if_true]
          rw [filterMap_cons_some hfinished, startedFor, filterMap_cons]
          simp only [Task.startedFor, hjob]
          by_cases heq : number' = number
          · rw [filter_cons_of_pos (by simpa using heq), map_cons, hrest, if_pos heq]
            rfl
          · rw [filter_cons_of_neg (by simpa using heq), hrest, if_neg heq]
            rfl
      | _ =>
          have hnone : task.finished = none := by simp only [Task.finished, hjob]
          rw [filterMap_cons_none hnone, hrest, startedFor, startedFor, filterMap_cons]
          simp only [Task.startedFor, hjob]

/-- The routes of one PUBLISH to one other client. -/
lemma Handed.perm_targets (h : Handed id v s) (hI : Inv id v s)
    (hdone : ∀ task ∈ s.tasks, task.place.isDone = true)
    {number : ℕ} {message : MqttPublishMessage} {qos : message.qosLevel ≠ .exactlyOnce}
    (hget : s.packets[number]? = some (.publish message qos)) (hadmits : Admits id v message)
    (hclean : ¬endsInEmptyLevels message.topicName) {clientId : Str}
    (hne : own id v ≠ some clientId) :
    ((s.handed.filter fun handover => handover.number = number ∧
      handover.route.clientId = clientId).map Handover.route) ~ targets v message clientId := by
  obtain ⟨task, htask, hjob⟩ := hI.jobs.arrived number message qos hget
  have hrouted := h.routed task htask number message hjob
  have hplace : task.place = .done := by
    have hend := hdone task htask
    cases hplace : task.place with
    | done => rfl
    | _ =>
        rw [hplace] at hend
        cases hend
  rw [hplace] at hrouted
  have hperm := hrouted.1 hadmits hclean clientId hne
  have hroutes := ((h.performed.filter fun key => key.1 = number).map Prod.snd).filter
    fun route => route.clientId = clientId
  rw [filter_finished hdone] at hroutes
  refine Perm.trans (Perm.of_eq ?_) (hroutes.trans hperm)
  simp only [filter_map, map_map, filter_filter]
  refine congrArg _ (filter_congr fun handover _ => ?_)
  simp only [Handover.key, Function.comp_apply, Bool.decide_and]
  exact Bool.and_comm _ _

/-- **Packets take effect in the order of arrival, if conflicting tasks take turns.**  When all
tasks are done, the stored routers are those of handling the packets one after the other.  The
messages of one topic and QoS come to every subscriber in the order of arrival (the number of a
message is its place among the packets), and a subscriber that is connected then transmits or
queues them.  Every PUBLISH that is let through comes to every other client once for each of its
subscriptions that match. -/
theorem effects_run (id : ℕ) (v : Verticle) (hv : v.broker.Working) (actions : List Action)
    (s : State) (hturns : AllSteps (step id) (Turn id) (start v) actions)
    (hrun : Lib.run (step id) (start v) actions = some s)
    (hdone : ∀ task ∈ s.tasks, task.place.isDone = true) :
    (∀ clientId topic, s.verticle.routerCache.routerOf clientId topic =
        (sequential id v s.packets).routerCache.routerOf clientId topic) ∧
      InOrder s.handed ∧ (∀ handover ∈ s.handed, handover.Exact id v s.packets) ∧
      ∀ number message qos, s.packets[number]? = some (.publish message qos) →
        Admits id v message → ¬endsInEmptyLevels message.topicName →
          ∀ clientId, own id v ≠ some clientId →
            ((s.handed.filter fun handover => handover.number = number ∧
              handover.route.clientId = clientId).map Handover.route) ~
                targets v message clientId := by
  have hc : v.routerCache.Consistent := hv.inv.routers
  obtain ⟨h, hhanded⟩ : Inv id v s ∧ Handed id v s := by
    refine invariant_run (I := fun s => Inv id v s ∧ Handed id v s)
      (fun _ _ _ _ hI hP hs => ?_) ⟨inv_start hc, handed_start hv⟩ hturns hrun
    exact ⟨hI.1.step hc hP hs, hI.2.step hI.1 hc hs⟩
  refine ⟨fun clientId topic => ?_, h.order, fun _ hmem => hhanded.exact h hmem, ?_⟩
  · have hnil : pending (Task.accesses id v) s.tasks = [] :=
      pending_eq_nil fun task htask => accesses_of_isDone (hdone task htask)
    have hstored := h.stored ⟨clientId, topic⟩
    rw [hnil] at hstored
    exact hstored
  · intro number message qos hget hadmits hclean clientId hne
    exact hhanded.perm_targets h hdone hget hadmits hclean hne

/-- Client `c` is connected, and client `d` has subscribed to `t`. -/
def sampleBroker : Broker :=
  [.op (.connect ['c'] true), .op (.connect ['d'] true),
    .op (.subscribeTopic ['d'] ['t'] 1)].foldl Broker.perform (.initial sampleConfig 1)

def sampleVerticle : Verticle :=
  { Verticle.initial ⟨true, false, 1000, 10⟩ none with
    broker := sampleBroker
    connections := [⟨⟨none, [], ['c']⟩, none⟩, ⟨⟨none, [], ['d']⟩, none⟩] }

lemma working_sampleBroker : sampleBroker.Working :=
  (Broker.working_initial sampleConfig 1).foldl _

/-- The payload is the packet id. -/
def samplePublish (messageId : ℕ) : Packet :=
  .publish ⟨['t'], messageId, [messageId.toUInt8], .atLeastOnce, false, false⟩ (by simp)

/-- A SUBSCRIBE, an UNSUBSCRIBE of the same filter and a PUBLISH: the UNSUBSCRIBE waits for the
SUBSCRIBE, and the PUBLISH for nobody. -/
def turnActions : List Action :=
  [.receive (.subscribe [⟨['t'], .atLeastOnce⟩]), .receive (.unsubscribe [['t']]),
    .receive (samplePublish 1), .run 2, .run 0, .run 2, .run 0, .run 2, .run 0, .run 0, .run 2,
    .run 1, .run 1, .run 3, .run 1, .run 2, .run 2, .run 4]

def turnState : State :=
  (Lib.run (step 0) (start sampleVerticle) turnActions).get (by decide)

/-- The message comes to `d`, and to `c` itself as long as its subscription is there. -/
theorem effects_run_turns :
    turnState.handed.map (fun handover => (handover.number, handover.route.clientId)) =
        [(2, ['c']), (2, ['d'])] ∧
      (∀ clientId topic, turnState.verticle.routerCache.routerOf clientId topic =
        (sequential 0 sampleVerticle turnState.packets).routerCache.routerOf clientId topic) ∧
      InOrder turnState.handed ∧
      (∀ handover ∈ turnState.handed, handover.Exact 0 sampleVerticle turnState.packets) ∧
      ∀ number message qos, turnState.packets[number]? = some (.publish message qos) →
        Admits 0 sampleVerticle message → ¬endsInEmptyLevels message.topicName →
          ∀ clientId, own 0 sampleVerticle ≠ some clientId →
            ((turnState.handed.filter fun handover => handover.number = number ∧
              handover.route.clientId = clientId).map Handover.route) ~
                targets sampleVerticle message clientId :=
  ⟨by decide, effects_run 0 sampleVerticle working_sampleBroker turnActions turnState (by decide)
    (Option.some_get (by decide)).symm (by decide)⟩

/-- An UNSUBSCRIBE runs before the SUBSCRIBE that came before it. -/
def overtakenActions : List Action :=
  [.receive (.subscribe [⟨['t'], .atLeastOnce⟩]), .receive (.unsubscribe [['t']]),
    .run 1, .run 1, .run 1, .run 0, .run 0, .run 0, .run 0]

/-- The second of two messages is routed and handed over before the first one. -/
def crossedActions : List Action :=
  [.receive (samplePublish 1), .receive (samplePublish 2), .run 1, .run 1, .run 1, .run 1, .run 1,
    .run 2, .run 0, .run 0, .run 0, .run 0, .run 0, .run 3]

/-- The payloads that a connection was sent. -/
def payloads (v : Verticle) (id : ℕ) : List (List UInt8) :=
  ((v.broker.endpoint id).toList.flatMap MqttEndpoint.written).filterMap fun packet =>
    (SessionWrapper.shown packet).map SessionWrapper.Content.payload

/-- The subscription stays although the client gave it up last, and the messages cross on the
connection of the subscriber. -/
theorem not_effects_run :
    (¬∀ s, Lib.run (step 0) (start sampleVerticle) overtakenActions = some s →
      (∀ task ∈ s.tasks, task.place.isDone = true) →
        ∀ clientId topic, s.verticle.routerCache.routerOf clientId topic =
          (sequential 0 sampleVerticle s.packets).routerCache.routerOf clientId topic) ∧
    ∃ s, Lib.run (step 0) (start sampleVerticle) crossedActions = some s ∧
      (∀ task ∈ s.tasks, task.place.isDone = true) ∧ ¬InOrder s.handed ∧
      payloads (sequential 0 sampleVerticle s.packets) 1 = [[1], [2]] ∧
      payloads s.verticle 1 = [[2], [1]] := by
  constructor
  · intro hall
    have hover : (Lib.run (step 0) (start sampleVerticle) overtakenActions).map (fun s =>
        (decide (∀ task ∈ s.tasks, task.place.isDone = true),
          (s.verticle.routerCache.routerOf ['c'] ['t']).isSome,
          ((sequential 0 sampleVerticle s.packets).routerCache.routerOf ['c'] ['t']).isSome)) =
        some (true, true, false) := by decide
    obtain ⟨s, hrun, hs⟩ := Option.map_eq_some_iff.1 hover
    simp only [Prod.mk.injEq] at hs
    have heq := hall s hrun (of_decide_eq_true hs.1) ['c'] ['t']
    rw [heq, hs.2.2] at hs
    exact absurd hs.2.1 (by decide)
  · have hcross : (Lib.run (step 0) (start sampleVerticle) crossedActions).map (fun s =>
        (decide (∀ task ∈ s.tasks, task.place.isDone = true), decide (InOrder s.handed),
          payloads (sequential 0 sampleVerticle s.packets) 1, payloads s.verticle 1)) =
        some (true, false, [[1], [2]], [[2], [1]]) := by decide
    obtain ⟨s, hrun, hs⟩ := Option.map_eq_some_iff.1 hcross
    simp only [Prod.mk.injEq] at hs
    obtain ⟨hdone, horder, hsequential, hpayloads⟩ := hs
    exact ⟨s, hrun, of_decide_eq_true hdone, of_decide_eq_false horder, hsequential, hpayloads⟩

end PacketOrder

end Stuart
