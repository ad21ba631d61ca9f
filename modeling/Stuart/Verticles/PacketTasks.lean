/-
The tasks of one connection.

Every PUBLISH, SUBSCRIBE and UNSUBSCRIBE starts a task, and a PUBLISH starts a further task of
`handleLocalPublishMessage` for each of its routes.  All of them are started unordered, so any task
may take its next step at any time, whatever was started before it.

Two tasks conflict if they access the router of the same client and filter, or route messages of
the same topic and QoS, or hand such messages over to the same subscriber.  `Turn` lets a task
begin only when the earlier ones that it conflicts with are done.
-/
import Stuart.Lib.Turns
import Stuart.Verticles.Handover
import Stuart.Verticles.RouterAccess

namespace Stuart

open List Lib TopicUtil AuthUtil

namespace PacketOrder

/-- A packet of the connection. -/
inductive Packet where
  | publish (message : MqttPublishMessage) (qos : message.qosLevel ≠ .exactlyOnce)
  | subscribe (subs : List MqttTopicSubscription)
  | unsubscribe (topics : List Str)

/-- What a task is for: a packet, a PUBLISH with its number in the order of arrival, or one route
of such a PUBLISH. -/
inductive Job where
  | publish (number : ℕ) (message : MqttPublishMessage)
  | subscribe (subs : List MqttTopicSubscription)
  | unsubscribe (topics : List Str)
  | handOver (number : ℕ) (message : MqttPublishMessage) (route : MqttRoute)

/-- Where a task is. -/
inductive Place where
  | start
  /-- next at `handleRetainMessage` -/
  | retaining
  /-- next at `getRoutes` -/
  | routing
  /-- in the loop that starts `handleLocalPublishMessage` for each route -/
  | handing (routes : List MqttRoute)
  /-- in the loop over the answers to a SUBSCRIBE -/
  | subscribing (wrapper : Option Str) (results : List MqttAuthority)
  /-- in the same loop, next at `handlePublishRetainMessage` -/
  | subscribed (wrapper topic : Str) (qos : ℤ) (results : List MqttAuthority)
  /-- in the loop over the filters of an UNSUBSCRIBE -/
  | unsubscribing (wrapper : Str) (topics : List Str)
  | done

def Place.isStart : Place → Bool
  | .start => true
  | _ => false

def Place.isDone : Place → Bool
  | .done => true
  | _ => false

structure Task where
  job : Job
  place : Place

/-- A task gives a message to `handleLocalPublishMessage` of a subscriber, where it is transmitted
or queued. -/
structure Handover where
  number : ℕ
  message : MqttPublishMessage
  route : MqttRoute
  before : Broker
  after : Broker

/-- What a task does that hands a message over. -/
def Task.handover (task : Task) (before after : Broker) : Option Handover :=
  match task.job with
  | .handOver number message route => some ⟨number, message, route, before, after⟩
  | _ => none

structure State where
  verticle : Verticle
  /-- in the order of arrival -/
  packets : List Packet
  /-- in the order in which they were started -/
  tasks : List Task
  /-- in the order in which they happened -/
  handed : List Handover

inductive Action where
  | receive (packet : Packet)
  /-- the next step of a task -/
  | run (index : ℕ)
  /-- an acknowledgement, a timer or a retained message of a registered wrapper -/
  | call (clientId : Str) (method : SessionMethod)
  /-- a message of another connection -/
  | publish (clientId : Str) (message : MqttMessage) (qos : MqttQoS)

/-- What a step of a task leads to. -/
structure Outcome where
  verticle : Verticle
  place : Place
  started : Option Job

/-- The handler lets a PUBLISH of the connection through. -/
def Admits (id : ℕ) (v : Verticle) (message : MqttPublishMessage) : Prop :=
  ∃ client, v.client id = some client ∧ checkPublishTopic message.topicName = true ∧
    canAccess v.config.isAuthAclAllowNomatch .pub
      (some (v.checkResult client message.topicName)) = true

/-- The next step of a task, for the connection `id`. -/
def exec (id : ℕ) (v : Verticle) (task : Task) : Option Outcome :=
  match task.job, task.place with
  | .publish _ message, .start =>
      match v.client id with
      | none => some ⟨v, .done, none⟩
      | some client =>
          if !checkPublishTopic message.topicName then some ⟨v, .done, none⟩
          else if !canAccess v.config.isAuthAclAllowNomatch .pub
              (some (v.checkResult client message.topicName)) then some ⟨v, .done, none⟩
          else some ⟨v, .retaining, none⟩
  | .publish _ message, .retaining => some ⟨v.handleRetainMessage message, .routing, none⟩
  | .publish _ message, .routing =>
      some ⟨v, .handing (v.routerCache.getRoutes v.config.isSessionUpgradeQos message.topicName
        message.qosLevel.value), none⟩
  | .publish number message, .handing (route :: routes) =>
      some ⟨v, .handing routes, some (.handOver number message route)⟩
  | .publish _ _, .handing [] => some ⟨v, .done, none⟩
  | .handOver _ message route, .start =>
      some ⟨v.withBroker (v.broker.handleLocalPublishMessage route.clientId
        message.convert2MqttMessage (MqttQoS.valueOf route.qos)), .done, none⟩
  | .subscribe subs, .start =>
      match v.client id with
      | none => some ⟨v, .done, none⟩
      | some client => some ⟨v, .subscribing (v.broker.wrapperClient client.clientId)
          (v.checkResults client subs), none⟩
  | .subscribe _, .subscribing wrapper (result :: results) =>
      if Verticle.granted v.config.isAuthAclAllowNomatch result then
        match wrapper with
        -- an exception
        | none => some ⟨v, .done, none⟩
        | some clientId =>
            some ⟨v.withBroker (v.broker.withCache
              (v.broker.cacheService.saveRouter clientId result.topic result.qos)),
              .subscribed clientId result.topic result.qos results, none⟩
      else some ⟨v, .subscribing wrapper results, none⟩
  | .subscribe _, .subscribing _ [] => some ⟨v, .done, none⟩
  | .subscribe _, .subscribed clientId topic qos results =>
      some ⟨v.handlePublishRetainMessage clientId topic qos, .subscribing (some clientId) results,
        none⟩
  | .unsubscribe topics, .start =>
      match v.client id with
      | none => some ⟨v, .done, none⟩
      | some client =>
          match v.broker.wrapperClient client.clientId with
          | none => some ⟨v, .done, none⟩
          | some clientId => some ⟨v, .unsubscribing clientId topics, none⟩
  | .unsubscribe _, .unsubscribing clientId (topic :: topics) =>
      some ⟨v.withBroker (v.broker.withCache (v.broker.cacheService.deleteRouter clientId topic)),
        .unsubscribing clientId topics, none⟩
  | .unsubscribe _, .unsubscribing _ [] => some ⟨v, .done, none⟩
  | _, _ => none

def Packet.job (number : ℕ) : Packet → Job
  | .publish message _ => .publish number message
  | .subscribe subs => .subscribe subs
  | .unsubscribe topics => .unsubscribe topics

def step (id : ℕ) (s : State) : Action → Option State
  | .receive packet =>
      some { s with
        packets := s.packets ++ [packet]
        tasks := s.tasks ++ [⟨packet.job s.packets.length, .start⟩] }
  | .run index =>
      s.tasks[index]?.bind fun task => (exec id s.verticle task).map fun outcome =>
        { s with
          verticle := outcome.verticle
          tasks := s.tasks.set index ⟨task.job, outcome.place⟩ ++
            outcome.started.toList.map fun job => ⟨job, .start⟩
          handed := s.handed ++
            (task.handover s.verticle.broker outcome.verticle.broker).toList }
  | .call clientId method =>
      some { s with
        verticle := s.verticle.withBroker (s.verticle.broker.onRegistered clientId method.call) }
  | .publish clientId message qos =>
      let broker := s.verticle.broker.handleLocalPublishMessage clientId message qos
      some { s with verticle := s.verticle.withBroker broker }

def start (v : Verticle) : State := ⟨v, [], [], []⟩

/-! ### Conflicts -/

/-- The accesses of a job to the routers. -/
def Job.accesses (id : ℕ) (v : Verticle) : Job → List RouterAccess
  | .publish .. | .handOver .. => []
  | .subscribe subs =>
      match v.client id with
      | none => []
      | some client =>
          v.saves (v.broker.wrapperClient client.clientId) (v.checkResults client subs)
  | .unsubscribe topics =>
      match v.client id with
      | none => []
      | some client => Verticle.deletes (v.broker.wrapperClient client.clientId) topics

def SameStream (message message' : MqttPublishMessage) : Prop :=
  message.topicName = message'.topicName ∧ message.qosLevel = message'.qosLevel

instance (message message' : MqttPublishMessage) : Decidable (SameStream message message') :=
  inferInstanceAs (Decidable (_ ∧ _))

def Job.Conflicts (id : ℕ) (v : Verticle) : Job → Job → Prop
  | .publish _ message, .publish _ message' => SameStream message message'
  | .handOver _ message route, .handOver _ message' route' =>
      route.clientId = route'.clientId ∧ SameStream message message'
  | job, job' => ∃ a ∈ job.accesses id v, ∃ b ∈ job'.accesses id v, a.key = b.key

instance (id : ℕ) (v : Verticle) : ∀ job job', Decidable (Job.Conflicts id v job job')
  | .publish _ message, .publish _ message' =>
      inferInstanceAs (Decidable (SameStream message message'))
  | .handOver .., .handOver .. => inferInstanceAs (Decidable (_ ∧ _))
  | .publish .., .subscribe _ | .publish .., .unsubscribe _ | .publish .., .handOver .. |
    .subscribe _, .publish .. | .subscribe _, .subscribe _ | .subscribe _, .unsubscribe _ |
    .subscribe _, .handOver .. | .unsubscribe _, .publish .. | .unsubscribe _, .subscribe _ |
    .unsubscribe _, .unsubscribe _ | .unsubscribe _, .handOver .. | .handOver .., .publish .. |
    .handOver .., .subscribe _ | .handOver .., .unsubscribe _ =>
      inferInstanceAs (Decidable (∃ a ∈ Job.accesses _ _ _, ∃ b ∈ Job.accesses _ _ _, _))

/-- A task begins only when the earlier ones that it conflicts with are done. -/
def Turn (id : ℕ) (s : State) : Action → Prop
  | .run index => ∀ task ∈ s.tasks[index]?, task.place.isStart = true →
      ∀ j < index, ∀ other ∈ s.tasks[j]?, other.job.Conflicts id s.verticle task.job →
        other.place.isDone = true
  | _ => True

instance (id : ℕ) (s : State) : DecidablePred (Turn id s)
  | .run index => inferInstanceAs (Decidable (∀ task ∈ s.tasks[index]?, _))
  | .receive _ | .call _ _ | .publish _ _ _ => inferInstanceAs (Decidable True)

/-! ### What a step of a task does -/

/-- The accesses to the routers that a task still has to make. -/
def Task.accesses (id : ℕ) (v : Verticle) (task : Task) : List RouterAccess :=
  match task.place with
  | .start => task.job.accesses id v
  | .subscribing wrapper results => v.saves wrapper results
  | .subscribed clientId _ _ results => v.saves (some clientId) results
  | .unsubscribing clientId topics => Verticle.deletes (some clientId) topics
  | .retaining | .routing | .handing _ | .done => []

def Job.isHandOver : Job → Bool
  | .handOver .. => true
  | _ => false

inductive Effect (id : ℕ) (v : Verticle) (task : Task) : Outcome → Prop where
  | quiet (v' : Verticle) (place : Place) (hjob : task.job.isHandOver = false)
      (hstart : place.isStart = false) (hwrites : v.Writes v' [])
      (hworking : v.broker.Working → v'.broker.Working)
      (haccesses : Task.accesses id v ⟨task.job, place⟩ = task.accesses id v) :
      Effect id v task ⟨v', place, none⟩
  | access (v' : Verticle) (place : Place) (access : RouterAccess)
      (hjob : task.job.isHandOver = false) (hstart : place.isStart = false)
      (hwrites : v.Writes v' [access]) (hworking : v.broker.Working → v'.broker.Working)
      (haccesses : task.accesses id v = access :: Task.accesses id v ⟨task.job, place⟩) :
      Effect id v task ⟨v', place, none⟩
  | started (number : ℕ) (message : MqttPublishMessage) (route : MqttRoute)
      (routes : List MqttRoute)
      (htask : task = ⟨.publish number message, .handing (route :: routes)⟩) :
      Effect id v task ⟨v, .handing routes, some (.handOver number message route)⟩
  | handed (number : ℕ) (message : MqttPublishMessage) (route : MqttRoute)
      (htask : task = ⟨.handOver number message route, .start⟩) :
      Effect id v task ⟨v.withBroker (v.broker.handleLocalPublishMessage route.clientId
        message.convert2MqttMessage (MqttQoS.valueOf route.qos)), .done, none⟩

variable {id : ℕ} {v v' : Verticle} {task : Task} {outcome : Outcome}

lemma Effect.pass (place : Place) (hjob : task.job.isHandOver = false)
    (hstart : place.isStart = false)
    (haccesses : Task.accesses id v ⟨task.job, place⟩ = task.accesses id v) :
    Effect id v task ⟨v, place, none⟩ :=
  .quiet v place hjob hstart (.refl v) (fun h => h) haccesses

lemma working_handlePublishRetainMessage (h : v.broker.Working) (clientId topic : Str) (qos : ℤ) :
    (v.handlePublishRetainMessage clientId topic qos).broker.Working := by
  simp only [Verticle.handlePublishRetainMessage]
  split_ifs
  · exact h
  · exact h.call clientId (.publishRetainMessage ((v.retainCache.get v.config.isSessionUpgradeQos
      topic qos).getD []))

/-- A step of a task of a SUBSCRIBE. -/
lemma effect_subscribe {subs : List MqttTopicSubscription} {place : Place}
    (h : exec id v ⟨.subscribe subs, place⟩ = some outcome) :
    Effect id v ⟨.subscribe subs, place⟩ outcome := by
  cases place with
  | start =>
      simp only [exec] at h
      cases hclient : v.client id with
      | none =>
          rw [hclient] at h
          obtain rfl := Option.some.inj h
          refine .pass _ rfl rfl ?_
          simp only [Task.accesses, Job.accesses, hclient]
      | some client =>
          rw [hclient] at h
          obtain rfl := Option.some.inj h
          refine .pass _ rfl rfl ?_
          simp only [Task.accesses, Job.accesses, hclient]
  | subscribing wrapper results =>
      cases results with
      | nil =>
          obtain rfl := Option.some.inj h
          refine .pass _ rfl rfl ?_
          cases wrapper with
          | none => rfl
          | some clientId => rfl
      | cons result results =>
          simp only [exec] at h
          split_ifs at h with hgranted
          · cases wrapper with
            | none =>
                obtain rfl := Option.some.inj h
                exact .pass _ rfl rfl rfl
            | some clientId =>
                obtain rfl := Option.some.inj h
                refine .access _ _ _ rfl rfl (Verticle.writes_withBroker
                  (Broker.writes_save _ clientId result.topic result.qos))
                  (fun h => h.saveRouter _ _ _) ?_
                exact Verticle.saves_cons_of_granted hgranted clientId results
          · obtain rfl := Option.some.inj h
            refine .pass _ rfl rfl ?_
            exact (Verticle.saves_cons_of_not_granted hgranted wrapper results).symm
  | subscribed clientId topic qos results =>
      obtain rfl := Option.some.inj h
      exact .quiet _ _ rfl rfl (Verticle.writes_handlePublishRetainMessage _ _ _ _)
        (fun h => working_handlePublishRetainMessage h _ _ _) rfl
  -- a SUBSCRIBE is at no other place
  | _ => cases h

/-- A step of a task of an UNSUBSCRIBE. -/
lemma effect_unsubscribe {topics : List Str} {place : Place}
    (h : exec id v ⟨.unsubscribe topics, place⟩ = some outcome) :
    Effect id v ⟨.unsubscribe topics, place⟩ outcome := by
  cases place with
  | start =>
      simp only [exec] at h
      cases hclient : v.client id with
      | none =>
          rw [hclient] at h
          obtain rfl := Option.some.inj h
          refine .pass _ rfl rfl ?_
          simp only [Task.accesses, Job.accesses, hclient]
      | some client =>
          rw [hclient] at h
          dsimp only at h
          cases hwrapper : v.broker.wrapperClient client.clientId with
          | none =>
              rw [hwrapper] at h
              obtain rfl := Option.some.inj h
              refine .pass _ rfl rfl ?_
              simp only [Task.accesses, Job.accesses, hclient, hwrapper, Verticle.deletes]
          | some clientId =>
              rw [hwrapper] at h
              obtain rfl := Option.some.inj h
              refine .pass _ rfl rfl ?_
              simp only [Task.accesses, Job.accesses, hclient, hwrapper]
  | unsubscribing clientId topics =>
      cases topics with
      | nil =>
          obtain rfl := Option.some.inj h
          exact .pass _ rfl rfl rfl
      | cons topic topics =>
          obtain rfl := Option.some.inj h
          exact .access _ _ _ rfl rfl (Verticle.writes_withBroker
            (Broker.writes_delete _ clientId topic)) (fun h => h.deleteRouter _ _) rfl
  | _ => cases h

/-- A step of a task of a PUBLISH. -/
lemma effect_publish {number : ℕ} {message : MqttPublishMessage} {place : Place}
    (h : exec id v ⟨.publish number message, place⟩ = some outcome) :
    Effect id v ⟨.publish number message, place⟩ outcome := by
  cases place with
  | start =>
      simp only [exec] at h
      cases hclient : v.client id with
      | none =>
          rw [hclient] at h
          obtain rfl := Option.some.inj h
          exact .pass _ rfl rfl rfl
      | some client =>
          rw [hclient] at h
          dsimp only at h
          split_ifs at h
          all_goals
            obtain rfl := Option.some.inj h
            exact .pass _ rfl rfl rfl
  | retaining =>
      obtain rfl := Option.some.inj h
      refine .quiet _ _ rfl rfl (Verticle.writes_handleRetainMessage v message) (fun h => ?_) rfl
      rw [Verticle.broker_handleRetainMessage]
      exact h
  | routing =>
      obtain rfl := Option.some.inj h
      exact .pass _ rfl rfl rfl
  | handing routes =>
      cases routes with
      | nil =>
          obtain rfl := Option.some.inj h
          exact .pass _ rfl rfl rfl
      | cons route routes =>
          obtain rfl := Option.some.inj h
          exact .started number message route routes rfl
  | _ => cases h

lemma effect_exec (h : exec id v task = some outcome) : Effect id v task outcome := by
  obtain ⟨job, place⟩ := task
  cases job with
  | publish number message => exact effect_publish h
  | subscribe subs => exact effect_subscribe h
  | unsubscribe topics => exact effect_unsubscribe h
  | handOver number message route =>
      cases place with
      | start =>
          obtain rfl := Option.some.inj h
          exact .handed number message route rfl
      | _ => cases h

/-- Only the loop over the routes of a PUBLISH starts tasks. -/
lemma started_of_exec (h : exec id v task = some outcome) : outcome.started = none ∨
    ∃ number message route, task.job = .publish number message ∧
      outcome.started = some (.handOver number message route) := by
  cases effect_exec h with
  | quiet => exact Or.inl rfl
  | access => exact Or.inl rfl
  | started number message route routes htask =>
      exact Or.inr ⟨number, message, route, by rw [htask], rfl⟩
  | handed => exact Or.inl rfl

lemma handover_of_not (h : task.job.isHandOver = false) (before after : Broker) :
    task.handover before after = none := by
  obtain ⟨job, place⟩ := task
  cases job with
  | handOver number message route => cases h
  | _ => rfl

lemma accesses_of_isDone (h : task.place.isDone = true) : task.accesses id v = [] := by
  obtain ⟨job, place⟩ := task
  cases place with
  | done => rfl
  | _ => cases h

lemma isDone_of_exec (h : exec id v task = some outcome) : task.place.isDone = false := by
  obtain ⟨job, place⟩ := task
  cases place with
  | done =>
      cases job with
      | publish number message => cases h
      | subscribe subs => cases h
      | unsubscribe topics => cases h
      | handOver number message route => cases h
  | _ => rfl

/-! ### The tasks and what they are for -/

/-- The tasks with their turns. -/
def InTurns (id : ℕ) (v : Verticle) (tasks : List Task) : Prop :=
  InTurn (fun task task' => task.job.Conflicts id v task'.job)
    (fun task => task.place.isStart = false) (fun task => task.place.isDone = true) tasks

/-- The tasks are in turn, and the numbers of the PUBLISHes come in their order. -/
structure Jobs (id : ℕ) (v : Verticle) (packets : List Packet) (tasks : List Task)
    (handed : List Handover) : Prop where
  turns : InTurns id v tasks
  publish : ∀ task ∈ tasks, ∀ number message, task.job = .publish number message →
    ∃ qos, packets[number]? = some (.publish message qos)
  arrived : ∀ number message qos, packets[number]? = some (.publish message qos) →
    ∃ task ∈ tasks, task.job = .publish number message
  sorted : ∀ (i j : ℕ) (task task' : Task) number message number' message', i < j →
    tasks[i]? = some task → tasks[j]? = some task' → task.job = .publish number message →
      task'.job = .publish number' message' → number < number'
  /-- a PUBLISH that hands over has begun -/
  source : ∀ task ∈ tasks, ∀ number message route, task.job = .handOver number message route →
    ∃ task' ∈ tasks, task'.job = .publish number message ∧ task'.place.isStart = false
  numbers : ∀ (i j : ℕ) (task task' : Task) number message route number' message' route', i < j →
    tasks[i]? = some task → tasks[j]? = some task' → task.job = .handOver number message route →
      task'.job = .handOver number' message' route' → SameStream message message' →
        number ≤ number'
  handed : ∀ handover ∈ handed,
    ⟨.handOver handover.number handover.message handover.route, .done⟩ ∈ tasks

/-- The same messages come to a subscriber in the order of their numbers. -/
def InOrder (handed : List Handover) : Prop :=
  handed.Pairwise fun first second => first.route.clientId = second.route.clientId →
    SameStream first.message second.message → first.number ≤ second.number

instance (handed : List Handover) : Decidable (InOrder handed) :=
  inferInstanceAs (Decidable (Pairwise _ _))

variable {packets : List Packet} {tasks : List Task} {handed : List Handover} {i : ℕ}

lemma jobs_nil (id : ℕ) (v : Verticle) : Jobs id v [] [] [] where
  turns := inTurn_nil
  publish := fun _ htask => absurd htask not_mem_nil
  arrived := fun _ _ _ hget => by simp at hget
  sorted := fun _ _ _ _ _ _ _ _ _ htask => by simp at htask
  source := fun _ htask => absurd htask not_mem_nil
  numbers := fun _ _ _ _ _ _ _ _ _ _ _ htask => by simp at htask
  handed := fun _ hhandover => absurd hhandover not_mem_nil

/-- The task in a place of the list has the same job as before. -/
lemma exists_of_getElem?_set {place : Place} (htask : tasks[i]? = some task) {j : ℕ}
    {task' : Task} (h : (tasks.set i ⟨task.job, place⟩)[j]? = some task') :
    ∃ old, tasks[j]? = some old ∧ old.job = task'.job := by
  rw [getElem?_set_of_some htask] at h
  split_ifs at h with hji
  · obtain rfl := Option.some.inj h
    exact ⟨task, hji ▸ htask, rfl⟩
  · exact ⟨task', h, rfl⟩

/-- A task takes a step. -/
lemma Jobs.set (h : Jobs id v packets tasks handed) (htask : tasks[i]? = some task)
    (hdone : task.place.isDone = false) {place : Place} (hstart : place.isStart = false)
    (hturn : ∀ j other, j < i → tasks[j]? = some other → other.job.Conflicts id v task.job →
      other.place.isDone = true) :
    Jobs id v packets (tasks.set i ⟨task.job, place⟩) handed where
  turns := h.turns.set htask (by simp [hdone]) hturn (fun _ => Iff.rfl) fun _ => Iff.rfl
  publish := by
    intro task' hmem number message hjob
    obtain ⟨j, hj⟩ := mem_iff_getElem?.1 hmem
    obtain ⟨old, hold, heq⟩ := exists_of_getElem?_set htask hj
    exact h.publish old (mem_of_getElem? hold) number message (heq.trans hjob)
  arrived := by
    intro number message qos hget
    obtain ⟨old, hold, hjob⟩ := h.arrived number message qos hget
    obtain ⟨j, hj⟩ := mem_iff_getElem?.1 hold
    by_cases hji : j = i
    · subst hji
      obtain rfl := Option.some.inj (htask.symm.trans hj)
      refine ⟨⟨task.job, place⟩, mem_iff_getElem?.2 ⟨j, ?_⟩, hjob⟩
      rw [getElem?_set_of_some htask, if_pos rfl]
    · refine ⟨old, mem_iff_getElem?.2 ⟨j, ?_⟩, hjob⟩
      rw [getElem?_set_of_some htask, if_neg hji]
      exact hj
  sorted := by
    intro j k task₁ task₂ number message number' message' hjk hj hk hjob₁ hjob₂
    obtain ⟨old₁, hold₁, heq₁⟩ := exists_of_getElem?_set htask hj
    obtain ⟨old₂, hold₂, heq₂⟩ := exists_of_getElem?_set htask hk
    exact h.sorted j k old₁ old₂ number message number' message' hjk hold₁ hold₂
      (heq₁.trans hjob₁) (heq₂.trans hjob₂)
  source := by
    intro task' hmem number message route hjob
    obtain ⟨j, hj⟩ := mem_iff_getElem?.1 hmem
    obtain ⟨old, hold, heq⟩ := exists_of_getElem?_set htask hj
    obtain ⟨source, hsource, hpublish, hbegun⟩ := h.source old (mem_of_getElem? hold) number message
      route (heq.trans hjob)
    obtain ⟨k, hk⟩ := mem_iff_getElem?.1 hsource
    by_cases hki : k = i
    · subst hki
      obtain rfl := Option.some.inj (htask.symm.trans hk)
      refine ⟨⟨task.job, place⟩, mem_iff_getElem?.2 ⟨k, ?_⟩, hpublish, hstart⟩
      rw [getElem?_set_of_some htask, if_pos rfl]
    · refine ⟨source, mem_iff_getElem?.2 ⟨k, ?_⟩, hpublish, hbegun⟩
      rw [getElem?_set_of_some htask, if_neg hki]
      exact hk
  numbers := by
    intro j k task₁ task₂ number message route number' message' route' hjk hj hk hjob₁ hjob₂
    obtain ⟨old₁, hold₁, heq₁⟩ := exists_of_getElem?_set htask hj
    obtain ⟨old₂, hold₂, heq₂⟩ := exists_of_getElem?_set htask hk
    exact h.numbers j k old₁ old₂ number message route number' message' route' hjk hold₁ hold₂
      (heq₁.trans hjob₁) (heq₂.trans hjob₂)
  handed := by
    intro handover hmem
    obtain ⟨j, hj⟩ := mem_iff_getElem?.1 (h.handed handover hmem)
    refine mem_iff_getElem?.2 ⟨j, ?_⟩
    rw [getElem?_set_of_some htask, if_neg]
    · exact hj
    · -- a task that is done takes no step
      rintro rfl
      obtain rfl := Option.some.inj (htask.symm.trans hj)
      cases hdone

/-- A packet arrives. -/
lemma Jobs.receive (h : Jobs id v packets tasks handed) (packet : Packet) :
    Jobs id v (packets ++ [packet]) (tasks ++ [⟨packet.job packets.length, .start⟩]) handed where
  turns := h.turns.concat (by simp [Place.isStart])
  publish := by
    intro task hmem number message hjob
    rcases mem_append.1 hmem with hmem | hmem
    · obtain ⟨qos, hget⟩ := h.publish task hmem number message hjob
      exact ⟨qos, getElem?_concat_eq_some.2 (Or.inl hget)⟩
    · obtain rfl := mem_singleton.1 hmem
      cases packet with
      | publish message' qos =>
          obtain ⟨rfl, rfl⟩ := Job.publish.inj hjob
          exact ⟨qos, getElem?_concat_eq_some.2 (Or.inr ⟨rfl, rfl⟩)⟩
      | subscribe subs => cases hjob
      | unsubscribe topics => cases hjob
  arrived := by
    intro number message qos hget
    rcases getElem?_concat_eq_some.1 hget with hget | ⟨rfl, rfl⟩
    · obtain ⟨task, htask, hjob⟩ := h.arrived number message qos hget
      exact ⟨task, mem_append_left _ htask, hjob⟩
    · exact ⟨_, mem_append_right _ (mem_singleton_self _), rfl⟩
  sorted := by
    intro j k task task' number message number' message' hjk hj hk hjob hjob'
    have hj := getElem?_of_concat hjk hj hk
    rcases getElem?_concat_eq_some.1 hk with hk | ⟨-, rfl⟩
    · exact h.sorted j k task task' number message number' message' hjk hj hk hjob hjob'
    · obtain ⟨qos, hget⟩ := h.publish task (mem_of_getElem? hj) number message hjob
      cases packet with
      | publish message' qos =>
          obtain ⟨rfl, rfl⟩ := Job.publish.inj hjob'
          exact (List.getElem?_eq_some_iff.1 hget).1
      | subscribe subs => cases hjob'
      | unsubscribe topics => cases hjob'
  source := by
    intro task hmem number message route hjob
    rcases mem_append.1 hmem with hmem | hmem
    · obtain ⟨source, hsource, hrest⟩ := h.source task hmem number message route hjob
      exact ⟨source, mem_append_left _ hsource, hrest⟩
    · obtain rfl := mem_singleton.1 hmem
      cases packet with
      | publish message' qos => cases hjob
      | subscribe subs => cases hjob
      | unsubscribe topics => cases hjob
  numbers := by
    intro j k task task' number message route number' message' route' hjk hj hk hjob hjob'
    have hj := getElem?_of_concat hjk hj hk
    rcases getElem?_concat_eq_some.1 hk with hk | ⟨-, rfl⟩
    · exact h.numbers j k task task' number message route number' message' route' hjk hj hk hjob
        hjob'
    · cases packet with
      | publish message' qos => cases hjob'
      | subscribe subs => cases hjob'
      | unsubscribe topics => cases hjob'
  handed := fun handover hmem => mem_append_left _ (h.handed handover hmem)

/-- A PUBLISH that is under way starts the task for one of its routes: what was handed over of the
same messages before comes from earlier ones. -/
lemma Jobs.start (h : Jobs id v packets tasks handed) {number : ℕ} {message : MqttPublishMessage}
    (htask : tasks[i]? = some task) (hjob : task.job = .publish number message)
    (hstart : task.place.isStart = false) (hdone : task.place.isDone = false) (route : MqttRoute) :
    Jobs id v packets (tasks ++ [⟨.handOver number message route, .start⟩]) handed where
  turns := h.turns.concat (by simp [Place.isStart])
  publish := by
    intro task' hmem number' message' hjob'
    rcases mem_append.1 hmem with hmem | hmem
    · exact h.publish task' hmem number' message' hjob'
    · obtain rfl := mem_singleton.1 hmem
      cases hjob'
  arrived := by
    intro number' message' qos hget
    obtain ⟨task', htask', hjob'⟩ := h.arrived number' message' qos hget
    exact ⟨task', mem_append_left _ htask', hjob'⟩
  sorted := by
    intro j k task₁ task₂ number₁ message₁ number₂ message₂ hjk hj hk hjob₁ hjob₂
    have hj := getElem?_of_concat hjk hj hk
    rcases getElem?_concat_eq_some.1 hk with hk | ⟨-, rfl⟩
    · exact h.sorted j k task₁ task₂ number₁ message₁ number₂ message₂ hjk hj hk hjob₁ hjob₂
    · cases hjob₂
  source := by
    intro task' hmem number' message' route' hjob'
    rcases mem_append.1 hmem with hmem | hmem
    · obtain ⟨source, hsource, hrest⟩ := h.source task' hmem number' message' route' hjob'
      exact ⟨source, mem_append_left _ hsource, hrest⟩
    · obtain rfl := mem_singleton.1 hmem
      obtain ⟨rfl, rfl, rfl⟩ := Job.handOver.inj hjob'
      exact ⟨task, mem_append_left _ (mem_of_getElem? htask), hjob, hstart⟩
  numbers := by
    intro j k task₁ task₂ number₁ message₁ route₁ number₂ message₂ route₂ hjk hj hk hjob₁ hjob₂
      hsame
    have hj := getElem?_of_concat hjk hj hk
    rcases getElem?_concat_eq_some.1 hk with hk | ⟨-, rfl⟩
    · exact h.numbers j k task₁ task₂ number₁ message₁ route₁ number₂ message₂ route₂ hjk hj hk
        hjob₁ hjob₂ hsame
    · obtain ⟨rfl, rfl, rfl⟩ := Job.handOver.inj hjob₂
      obtain ⟨source, hsource, hpublish, hbegun⟩ := h.source task₁ (mem_of_getElem? hj) number₁
        message₁ route₁ hjob₁
      obtain ⟨l, hl⟩ := mem_iff_getElem?.1 hsource
      rcases Nat.lt_trichotomy l i with hli | rfl | hil
      · exact (h.sorted l i source task number₁ message₁ number message hli hl htask hpublish
          hjob).le
      · obtain rfl := Option.some.inj (htask.symm.trans hl)
        exact (Job.publish.inj (hpublish.symm.trans hjob)).1.le
      · -- the later PUBLISH would have waited for this one
        have hconf : task.job.Conflicts id v source.job := by
          rw [hjob, hpublish]
          exact ⟨hsame.1.symm, hsame.2.symm⟩
        have hend : task.place.isDone = true := h.turns i l task source hil htask hl hconf hbegun
        rw [hdone] at hend
        cases hend
  handed := fun handover hmem => mem_append_left _ (h.handed handover hmem)

/-- A message is handed over: those before it to the same subscriber have lower numbers. -/
lemma Jobs.inOrder_concat (h : Jobs id v packets tasks handed) (horder : InOrder handed)
    {handover : Handover}
    (htask : tasks[i]? = some ⟨.handOver handover.number handover.message handover.route, .start⟩) :
    InOrder (handed ++ [handover]) := by
  refine pairwise_append.2 ⟨horder, pairwise_singleton _ _, ?_⟩
  intro earlier hmem last hlast hclient hsame
  obtain rfl := mem_singleton.1 hlast
  obtain ⟨j, hj⟩ := mem_iff_getElem?.1 (h.handed earlier hmem)
  rcases Nat.lt_trichotomy j i with hji | rfl | hij
  · exact h.numbers j i _ _ _ _ _ _ _ _ hji hj htask rfl rfl hsame
  · exact absurd (congrArg Task.place (Option.some.inj (htask.symm.trans hj))) (by simp)
  · -- the later task would have waited for this one
    have hconf : Job.Conflicts id v (.handOver last.number last.message last.route)
        (.handOver earlier.number earlier.message earlier.route) :=
      ⟨hclient.symm, hsame.1.symm, hsame.2.symm⟩
    have hend := h.turns i j _ _ hij htask hj hconf rfl
    cases hend

/-- A task has handed a message over. -/
lemma Jobs.hand (h : Jobs id v packets tasks handed) {handover : Handover}
    (hmem : ⟨.handOver handover.number handover.message handover.route, .done⟩ ∈ tasks) :
    Jobs id v packets tasks (handed ++ [handover]) where
  turns := h.turns
  publish := h.publish
  arrived := h.arrived
  sorted := h.sorted
  source := h.source
  numbers := h.numbers
  handed := by
    intro handover' hhandover
    rcases mem_append.1 hhandover with hold | hnew
    · exact h.handed handover' hold
    · obtain rfl := mem_singleton.1 hnew
      exact hmem

/-! ### The accesses stay the same -/

variable {accesses : List RouterAccess}

lemma jobAccesses_congr (h : v.Writes v' accesses) :
    Job.accesses id v' = Job.accesses id v := by
  funext job
  cases job with
  | publish number message => rfl
  | handOver number message route => rfl
  | subscribe subs =>
      have hresults : ∀ client, v'.checkResults client subs = v.checkResults client subs := by
        intro client
        simp only [Verticle.checkResults, h.authService]
      simp only [Job.accesses, h.client, h.saves_eq, h.broker.wrappers, hresults]
  | unsubscribe topics => simp only [Job.accesses, h.client, h.broker.wrappers]

lemma taskAccesses_congr (h : v.Writes v' accesses) :
    Task.accesses id v' = Task.accesses id v := by
  funext task
  simp only [Task.accesses, jobAccesses_congr h, h.saves_eq]

lemma conflicts_congr (h : v.Writes v' accesses) :
    Job.Conflicts id v' = Job.Conflicts id v := by
  funext job job'
  simp only [Job.Conflicts, jobAccesses_congr h]

/-- Two jobs that access the same router conflict. -/
lemma conflicts_of_key {job job' : Job} {a b : RouterAccess} (ha : a ∈ job.accesses id v)
    (hb : b ∈ job'.accesses id v) (hkey : a.key = b.key) : job.Conflicts id v job' := by
  have hboth : ∃ a ∈ job.accesses id v, ∃ b ∈ job'.accesses id v, a.key = b.key :=
    ⟨a, ha, b, hb, hkey⟩
  cases job with
  | publish number message => exact absurd ha not_mem_nil
  | handOver number message route => exact absurd ha not_mem_nil
  | subscribe subs => exact hboth
  | unsubscribe topics => exact hboth

end PacketOrder

end Stuart
