/-
A persistent session that is reconnected while messages for it come in.

The stored record of the client is that of a persistent session.  One thread runs `handleAccept`
for a CONNECT without cleanSession: `openSession` with its parts, the flush in `open()` among them,
then the registration of the wrapper, and last `endpoint.accept`.  Any number of tasks run
`handleLocalPublishMessage`: each looks the wrapper up, and either hands the message to it or puts
the message into the stored queue and looks the wrapper up again.  `publishCachedMessage` is a loop
of rounds under the flag `queueCas`, which a caller that finds it taken does not wait for.

A round of the loop sends nothing before the endpoint is accepted.  So once all have finished the
queue is empty or the window full iff this was so at the accept already, or some task ran a round
after it (`flushed_iff`), as long as no call after the accept came too late for a loop that had
ended but not given back the flag.
-/
import Stuart.Services.CacheService
import Stuart.Sessions.SessionFrame
import Stuart.Lib.Runs

namespace Stuart

open List Lib SessionWrapper

namespace PersistentSessionWrapper

/-- The first half of `publishMessage`. -/
def accepted (w : SessionWrapper .persistent) (message : MqttMessage) (qos : MqttQoS) :
    ℤ × SessionWrapper .persistent :=
  { w with ledger := w.ledger.accept qos }.handleMessage (w.copyMqttMessage message qos)

lemma publishMessage_eq (w : SessionWrapper .persistent) (message : MqttMessage) (qos : MqttQoS) :
    w.publishMessage message qos =
      if (accepted w message qos).1 = MsgConst.ENQUEUE_SUCCEEDED then
        (accepted w message qos).2.publishCachedMessage
      else (accepted w message qos).2 := rfl

/-- `enqueue` of the cache service, on the stored queue of the session. -/
def storeMessage (w : SessionWrapper .persistent) (message : MqttMessage) (qos : MqttQoS) :
    SessionWrapper .persistent :=
  if message.qos = .atMostOnce && !w.config.sessionQueueStoreQos0 then w
  else
    { w with queue := (BoundedIgniteQueue.addExt w.queue
        { message with clientId := w.thisClientId, qos := qos }).2 }

/-- `storeMessage` is the enqueue of the cache service that holds the queue. -/
lemma data_enqueue_eq {s : CacheService} {w : SessionWrapper .persistent}
    (hv : IdUtil.validateClientId w.thisClientId = true) (hconfig : s.config = w.config)
    (hqueue : (s.data w.thisClientId).queue = some w.queue) (message : MqttMessage)
    (qos : MqttQoS) :
    ((s.enqueue message w.thisClientId qos).2.data w.thisClientId).queue =
      some (storeMessage w message qos).queue := by
  have hget : s.queueCache.get w.thisClientId = some w.queue := hqueue
  simp only [CacheService.enqueue, storeMessage]
  rw [if_neg (by simp [hv]), hconfig]
  split_ifs
  · exact hqueue
  · rw [hget]
    exact PlainMap.get_put_self _ _ _

lemma kept_accepted (w : SessionWrapper .persistent) (message : MqttMessage) (qos : MqttQoS) :
    Kept w (accepted w message qos).2 := by
  have hledger : Kept w { w with ledger := w.ledger.accept qos } :=
    ⟨rfl, rfl, rfl, id, fun h => ⟨h, rfl⟩, id⟩
  exact hledger.trans (kept_handleMessage _ _)

/-- Nothing is left to deliver, or there is no room for it. -/
def Flushed (w : SessionWrapper .persistent) : Prop :=
  w.queue.items = [] ∨ w.isInflightFull = true

instance (w : SessionWrapper .persistent) : Decidable (Flushed w) :=
  inferInstanceAs (Decidable (_ ∨ _))

variable {w : SessionWrapper .persistent}

lemma addExt_ne_nil (capacity count : ℤ) (message : MqttMessage) (items : List MqttMessage) :
    (BoundedIgniteQueue.offerExtFrom capacity message count items).2.items ≠ [] := by
  induction items generalizing count with
  | nil => simp [BoundedIgniteQueue.offerExtFrom]
  | cons first rest ih =>
      simp only [BoundedIgniteQueue.offerExtFrom]
      split_ifs
      · exact ih 1
      · simp

/-- A message that is put into the stored queue flushes nothing. -/
lemma storeMessage_spec (message : MqttMessage) (qos : MqttQoS) :
    (storeMessage w message qos).endpoint = w.endpoint ∧
      (Flushed (storeMessage w message qos) → Flushed w) := by
  simp only [storeMessage]
  split_ifs
  · exact ⟨rfl, id⟩
  · refine ⟨rfl, fun hf => ?_⟩
    rcases hf with hempty | hfull
    · exact absurd hempty (addExt_ne_nil _ _ _ _)
    · exact Or.inr hfull

lemma enqueue_spec (message : MqttMessage) :
    (w.enqueue message).1 = MsgConst.ENQUEUE_SUCCEEDED ∧
      (Flushed (w.enqueue message).2 → Flushed w) := by
  have hcount : ∀ (items : List MqttMessage) (count : ℤ), 0 ≤ count →
      0 ≤ (BoundedIgniteQueue.offerExtFrom w.queue.capacity message count items).1 := by
    intro items
    induction items with
    | nil => exact fun count h => h
    | cons first rest ih =>
        intro count h
        simp only [BoundedIgniteQueue.offerExtFrom]
        split_ifs
        · exact ih 1 (by omega)
        · exact h
  have hadd : (w.addExt message).1 ≥ 0 := hcount w.queue.items 0 le_rfl
  simp only [enqueue]
  rw [if_pos hadd]
  refine ⟨rfl, fun hf => ?_⟩
  rcases hf with hempty | hfull
  · exact absurd hempty (addExt_ne_nil _ _ _ _)
  · exact Or.inr hfull

lemma publish_flushed (message : MqttMessage) (everPublished : Bool) :
    Flushed (w.publish message everPublished).2 ↔ Flushed w := by
  have hfull : (w.publish message everPublished).2.isInflightFull = w.isInflightFull := by
    simp only [isInflightFull]
    rw [publish_inflights, (kept_publish w message everPublished).config]
  simp only [Flushed]
  rw [publish_queue, hfull]

/-- What `handleMessage` does to a session that is not flushed, and to one that is: it can only
flush if there is nothing queued, and what it does not enqueue keeps a flushed session flushed. -/
lemma handleMessage_spec (message : MqttMessage) :
    (Flushed (w.handleMessage message).2 → Flushed w) ∧
      ((w.handleMessage message).1 ≠ MsgConst.ENQUEUE_SUCCEEDED → Flushed w →
        Flushed (w.handleMessage message).2) := by
  obtain ⟨henq, hback⟩ := enqueue_spec (w := w) message
  simp only [handleMessage]
  split_ifs
  · exact ⟨hback, fun hne => absurd henq hne⟩
  · exact ⟨(publish_flushed message false).1, fun _ => (publish_flushed message false).2⟩
  · rw [inflight]
    dsimp only
    by_cases hstop : (!w.queue.items.isEmpty || w.isInflightFull) = true
    · rw [if_pos hstop]
      exact ⟨hback, fun hne => absurd henq hne⟩
    · rw [if_neg hstop]
      simp only [Bool.or_eq_true, not_or, Bool.not_eq_true, Bool.not_eq_false',
        List.isEmpty_iff] at hstop
      split_ifs
      · -- nothing is queued, and nothing gets queued
        refine ⟨fun _ => Or.inl hstop.1, fun _ _ => Or.inl ?_⟩
        rw [publish_queue]
        exact hstop.1
      · exact ⟨hback, fun hne => absurd henq hne⟩

end PersistentSessionWrapper

namespace Reconnect

open PersistentSessionWrapper

/-! ### The steps -/

/-- Where a call of `publishCachedMessage` is. -/
inductive FlushPc where
  | call
  | loop
  /-- out of the loop, the flag is not given back yet -/
  | stop
deriving DecidableEq, Repr

/-- Where `handleAccept` is; `old` tells whether a wrapper was registered before. -/
inductive AcceptPc where
  | start
  | read
  | taken (old : Bool)
  | tornDown (old : Bool)
  | built
  | opening (flush : FlushPc)
  | opened
  | registered
  | accepted
deriving DecidableEq, Repr

/-- Where a delivery is. -/
inductive TaskPc where
  | start
  | found
  | missing
  | enqueued
  | flushing (flush : FlushPc)
  | done
deriving DecidableEq, Repr

/-- A task of `handleLocalPublishMessage` for the client. -/
structure Task where
  message : MqttMessage
  qos : MqttQoS
  pc : TaskPc
deriving DecidableEq

/-- The wrapper object and what is stored of the session are one record: before the wrapper is
built only the stored part of it is used. -/
structure State where
  session : SessionWrapper .persistent
  /-- whether the wrapper is in the container -/
  registered : Bool
  /-- the flag of the wrapper that `dequeue` takes -/
  queueCas : Bool
  accept : AcceptPc
  tasks : List Task

/-- One step of `publishCachedMessage`, and where it is afterwards; `none` when it returns. -/
def flushStep (s : State) : FlushPc → Option FlushPc × State
  | .call => if s.queueCas then (none, s) else (some .loop, { s with queueCas := true })
  | .loop =>
      match s.session.dequeueRound with
      | (true, session) => (some .loop, { s with session := session })
      | (false, session) => (some .stop, { s with session := session })
  | .stop => (none, { s with queueCas := false })

/-- One step of `handleAccept`.  The record of the client is persistent when it is read, and the
one that is saved is again. -/
def acceptStep (s : State) : Option State :=
  match s.accept with
  | .start => some { s with accept := .read }
  | .read => some { s with registered := false, accept := .taken s.registered }
  | .taken old =>
      let endpoint :=
        if old && s.session.endpoint.isConnected then s.session.endpoint.close
        else s.session.endpoint
      some { s with session := { s.session with endpoint := endpoint }, accept := .tornDown old }
  | .tornDown old =>
      let endpoint := MqttEndpoint.create (s.session.endpoint.id + 1) s.session.thisClientId false
      if old then
        some { s with session := refreshEndpoint s.session endpoint, accept := .built }
      else
        some { s with
          session := new s.session.config endpoint s.session.queue.items s.session.inflights
            s.session.ledger
          queueCas := false
          accept := .built }
  | .built => some { s with session := retryInflights s.session, accept := .opening .call }
  | .opening flush =>
      match flushStep s flush with
      | (some flush, s) => some { s with accept := .opening flush }
      | (none, s) => some { s with accept := .opened }
  | .opened => some { s with registered := true, accept := .registered }
  | .registered =>
      match s.session.endpoint.accept with
      | none => none
      | some endpoint =>
          some { s with session := { s.session with endpoint := endpoint }, accept := .accepted }
  | .accepted => none

def setPc (s : State) (i : ℕ) (task : Task) (pc : TaskPc) : State :=
  { s with tasks := s.tasks.set i { task with pc := pc } }

/-- One step of the delivery `task`, the `i`-th one. -/
def taskStep (s : State) (i : ℕ) (task : Task) : Option State :=
  match task.pc with
  | .start => some (setPc s i task (if s.registered then .found else .missing))
  | .found =>
      let result := accepted s.session task.message task.qos
      some (setPc { s with session := result.2 } i task
        (if result.1 = MsgConst.ENQUEUE_SUCCEEDED then .flushing .call else .done))
  | .missing =>
      some (setPc { s with session := storeMessage s.session task.message task.qos } i task
        .enqueued)
  | .enqueued => some (setPc s i task (if s.registered then .flushing .call else .done))
  | .flushing flush =>
      match flushStep s flush with
      | (some flush, s) => some (setPc s i task (.flushing flush))
      | (none, s) => some (setPc s i task .done)
  | .done => none

/-- Who takes the next step. -/
inductive Action where
  | accept
  | task (i : ℕ)
deriving DecidableEq, Repr

def step (s : State) : Action → Option State
  | .accept => acceptStep s
  | .task i =>
      match s.tasks[i]? with
      | none => none
      | some task => taskStep s i task

/-- Nothing has begun yet.  The client is offline, or its wrapper is registered. -/
structure Start (s : State) : Prop where
  accept : s.accept = .start
  queueCas : s.queueCas = false
  tasks : ∀ task ∈ s.tasks, task.pc = .start

def Finished (s : State) : Prop := s.accept = .accepted ∧ ∀ task ∈ s.tasks, task.pc = .done

instance (s : State) : Decidable (Finished s) := inferInstanceAs (Decidable (_ ∧ _))

/-- The step leaves a session that is flushed, or has a task that will see to it: the accept of a
session that is flushed already, or a round of `dequeue` after the accept. -/
def Delivers (s : State) : Action → Prop
  | .accept => s.accept = .registered ∧ Flushed s.session
  | .task i => s.accept = .accepted ∧
      (s.tasks[i]?.map Task.pc) = some (.flushing .loop)

/-- A call of `publishCachedMessage` after the accept finds the flag free, or a task that holds
it has not left its loop yet. -/
def StepOk (s : State) : Action → Prop
  | .accept => True
  | .task i => s.accept = .accepted → (s.tasks[i]?.map Task.pc) = some (.flushing .call) →
      s.queueCas = true → ∃ task ∈ s.tasks, task.pc = .flushing .loop

instance : ∀ s a, Decidable (Delivers s a)
  | _, .accept => inferInstanceAs (Decidable (_ ∧ _))
  | _, .task _ => inferInstanceAs (Decidable (_ ∧ _))

instance : ∀ s a, Decidable (StepOk s a)
  | _, .accept => inferInstanceAs (Decidable True)
  | _, .task _ => inferInstanceAs (Decidable (_ → _ → _ → _))

/-! ### What the steps keep -/

/-- The new endpoint is in use. -/
def AcceptPc.isBuilt : AcceptPc → Bool
  | .built | .opening _ | .opened | .registered | .accepted => true
  | _ => false

/-- The wrapper is registered for good. -/
def AcceptPc.isRegistered : AcceptPc → Bool
  | .registered | .accepted => true
  | _ => false

structure Sane (s : State) : Prop where
  inRange : s.accept.isBuilt = true → s.session.endpoint.InRange
  registered : s.accept.isRegistered = true → s.registered = true
  connected : s.accept = .accepted → s.session.endpoint.isConnected = true

variable {s s' : State}

lemma flushStep_spec (flush : FlushPc) :
    (flushStep s flush).2.accept = s.accept ∧ (flushStep s flush).2.registered = s.registered ∧
      (flushStep s flush).2.tasks = s.tasks ∧
      Kept s.session (flushStep s flush).2.session := by
  cases flush with
  | call =>
      simp only [flushStep]
      split_ifs
      · exact ⟨rfl, rfl, rfl, Kept.refl _⟩
      · exact ⟨rfl, rfl, rfl, Kept.refl _⟩
  | loop =>
      have hkept := kept_dequeueRound s.session
      simp only [flushStep]
      cases hround : s.session.dequeueRound with
      | mk goesOn session =>
          rw [hround] at hkept
          cases goesOn with
          | true => exact ⟨rfl, rfl, rfl, hkept⟩
          | false => exact ⟨rfl, rfl, rfl, hkept⟩
  | stop => exact ⟨rfl, rfl, rfl, Kept.refl _⟩

/-- What a step of a task can do. -/
lemma taskStep_cases {i : ℕ} {task : Task} (h : taskStep s i task = some s') :
    (task.pc = .start ∧ s' = setPc s i task (if s.registered then .found else .missing)) ∨
    (task.pc = .found ∧
      s' = setPc { s with session := (accepted s.session task.message task.qos).2 } i task
        (if (accepted s.session task.message task.qos).1 = MsgConst.ENQUEUE_SUCCEEDED then
          .flushing .call else .done)) ∨
    (task.pc = .missing ∧
      s' = setPc { s with session := storeMessage s.session task.message task.qos } i task
        .enqueued) ∨
    (task.pc = .enqueued ∧
      s' = setPc s i task (if s.registered then .flushing .call else .done)) ∨
    ∃ flush, task.pc = .flushing flush ∧ s' = setPc (flushStep s flush).2 i task
      (((flushStep s flush).1.map TaskPc.flushing).getD .done) := by
  simp only [taskStep] at h
  cases hpc : task.pc with
  | start | found | missing | enqueued =>
      rw [hpc] at h
      obtain rfl := Option.some.inj h
      simp
  | flushing flush =>
      rw [hpc] at h
      dsimp only at h
      refine Or.inr (Or.inr (Or.inr (Or.inr ⟨flush, rfl, ?_⟩)))
      cases hflush : flushStep s flush with
      | mk next s₁ =>
          rw [hflush] at h
          cases next <;> exact (Option.some.inj h).symm
  | done =>
      rw [hpc] at h
      cases h

/-- A task changes neither the thread of the accept nor the registration nor the connection. -/
lemma taskStep_frame {i : ℕ} {task : Task} (h : taskStep s i task = some s') :
    s'.accept = s.accept ∧ s'.registered = s.registered ∧
      s'.session.endpoint.isConnected = s.session.endpoint.isConnected ∧
      (s.session.endpoint.InRange → s'.session.endpoint.InRange) := by
  rcases taskStep_cases h with ⟨-, rfl⟩ | ⟨-, rfl⟩ | ⟨-, rfl⟩ | ⟨-, rfl⟩ | ⟨flush, -, rfl⟩
  · exact ⟨rfl, rfl, rfl, id⟩
  · have hkept := kept_accepted s.session task.message task.qos
    exact ⟨rfl, rfl, hkept.isConnected, hkept.inRange⟩
  · have hend := (storeMessage_spec (w := s.session) task.message task.qos).1
    refine ⟨rfl, rfl, congrArg MqttEndpoint.isConnected hend, fun hr => ?_⟩
    show (storeMessage s.session task.message task.qos).endpoint.InRange
    rw [hend]
    exact hr
  · exact ⟨rfl, rfl, rfl, id⟩
  · obtain ⟨haccept, hreg, -, hkept⟩ := flushStep_spec (s := s) flush
    exact ⟨haccept, hreg, hkept.isConnected, hkept.inRange⟩

/-- The step of a task is the step of one that is there. -/
lemma step_task {i : ℕ} (h : step s (.task i) = some s') :
    ∃ task, s.tasks[i]? = some task ∧ taskStep s i task = some s' := by
  have h' : (match s.tasks[i]? with
    | none => none
    | some task => taskStep s i task) = some s' := h
  cases hget : s.tasks[i]? with
  | none =>
      rw [hget] at h'
      exact absurd h' (by simp)
  | some task =>
      rw [hget] at h'
      exact ⟨task, rfl, h'⟩

/-- The last step of `handleAccept` only connects the endpoint. -/
lemma acceptStep_of_registered (hpc : s.accept = .registered) (h : acceptStep s = some s') :
    s' = { s with
      session := { s.session with endpoint := { s.session.endpoint with isConnected := true } }
      accept := .accepted } := by
  simp only [acceptStep] at h
  rw [hpc] at h
  dsimp only at h
  cases haccept : s.session.endpoint.accept with
  | none =>
      rw [haccept] at h
      cases h
  | some endpoint =>
      rw [haccept] at h
      obtain ⟨-, rfl⟩ := MqttEndpoint.eq_of_accept haccept
      exact (Option.some.inj h).symm

lemma Sane.acceptStep (h : Sane s) (hstep : acceptStep s = some s') : Sane s' := by
  cases hpc : s.accept with
  | registered =>
      obtain rfl := acceptStep_of_registered hpc hstep
      exact ⟨fun _ => h.inRange (by rw [hpc]; rfl), fun _ => h.registered (by rw [hpc]; rfl),
        fun _ => rfl⟩
  | start | read | taken old =>
      simp only [Reconnect.acceptStep] at hstep
      rw [hpc] at hstep
      obtain rfl := Option.some.inj hstep
      exact ⟨by simp [AcceptPc.isBuilt], by simp [AcceptPc.isRegistered], by simp⟩
  | tornDown old =>
      simp only [Reconnect.acceptStep] at hstep
      rw [hpc] at hstep
      have hrange := MqttEndpoint.inRange_create (s.session.endpoint.id + 1)
        s.session.thisClientId false
      cases old with
      | true | false =>
          obtain rfl := Option.some.inj hstep
          exact ⟨fun _ => hrange, by simp [AcceptPc.isRegistered], by simp⟩
  | built =>
      simp only [Reconnect.acceptStep] at hstep
      rw [hpc] at hstep
      obtain rfl := Option.some.inj hstep
      refine ⟨fun _ => ?_, by simp [AcceptPc.isRegistered], by simp⟩
      exact (kept_retryInflights s.session).inRange (h.inRange (by rw [hpc]; rfl))
  | opening flush =>
      simp only [Reconnect.acceptStep] at hstep
      rw [hpc] at hstep
      have hrange := h.inRange (by rw [hpc]; rfl)
      have hkept := (flushStep_spec (s := s) flush).2.2.2
      dsimp only at hstep
      cases hflush : flushStep s flush with
      | mk next s₁ =>
          rw [hflush] at hstep hkept
          cases next with
          | none | some next =>
              obtain rfl := Option.some.inj hstep
              exact ⟨fun _ => hkept.inRange hrange, by simp [AcceptPc.isRegistered], by simp⟩
  | opened =>
      simp only [Reconnect.acceptStep] at hstep
      rw [hpc] at hstep
      obtain rfl := Option.some.inj hstep
      exact ⟨fun _ => h.inRange (by rw [hpc]; rfl), fun _ => rfl, by simp⟩
  | accepted =>
      simp only [Reconnect.acceptStep] at hstep
      rw [hpc] at hstep
      cases hstep

lemma Sane.step (h : Sane s) {a : Action} (hstep : step s a = some s') : Sane s' := by
  cases a with
  | accept => exact h.acceptStep hstep
  | task i =>
      obtain ⟨task, -, hstep⟩ := step_task hstep
      obtain ⟨haccept, hreg, hconn, hrange⟩ := taskStep_frame hstep
      refine ⟨fun hb => ?_, fun hb => ?_, fun hb => ?_⟩
      · rw [haccept] at hb
        exact hrange (h.inRange hb)
      · rw [haccept] at hb
        rw [hreg]
        exact h.registered hb
      · rw [haccept] at hb
        rw [hconn]
        exact h.connected hb

/-- Only the last step of `handleAccept` accepts. -/
lemma acceptStep_accepted (h : acceptStep s = some s') (haccepted : s'.accept = .accepted) :
    s.accept = .registered := by
  by_contra hnot
  simp only [acceptStep] at h
  cases hpc : s.accept with
  | registered => exact hnot hpc
  | opening flush =>
      rw [hpc] at h
      dsimp only at h
      cases hflush : flushStep s flush with
      | mk next s₁ =>
          rw [hflush] at h
          cases next <;> obtain rfl := Option.some.inj h <;> cases haccepted
  | tornDown old =>
      rw [hpc] at h
      cases old <;> obtain rfl := Option.some.inj h <;> cases haccepted
  | start | read | taken old | built | opened =>
      rw [hpc] at h
      obtain rfl := Option.some.inj h
      cases haccepted
  | accepted =>
      rw [hpc] at h
      cases h

/-! ### Without a round after the accept -/

/-- A step of a task after the accept that is no round of `dequeue` flushes nothing. -/
lemma not_flushed_taskStep {i : ℕ} {task : Task} (hpc : task.pc ≠ .flushing .loop)
    (h : taskStep s i task = some s') (hflushed : Flushed s'.session) : Flushed s.session := by
  rcases taskStep_cases h with ⟨-, rfl⟩ | ⟨-, rfl⟩ | ⟨-, rfl⟩ | ⟨-, rfl⟩ | ⟨flush, hflush, rfl⟩
  · exact hflushed
  · exact (handleMessage_spec (w := { s.session with ledger := s.session.ledger.accept task.qos })
      (s.session.copyMqttMessage task.message task.qos)).1 hflushed
  · exact (storeMessage_spec task.message task.qos).2 hflushed
  · exact hflushed
  · cases flush with
    | loop => exact absurd hflush hpc
    | call =>
        simp only [flushStep] at hflushed
        split_ifs at hflushed <;> exact hflushed
    | stop => exact hflushed

/-- No step of the run delivers: after the accept the session is not flushed. -/
lemma not_flushed_step {a : Action} (h : s.accept = .accepted → ¬Flushed s.session)
    (hnot : ¬Delivers s a) (hstep : step s a = some s') :
    s'.accept = .accepted → ¬Flushed s'.session := by
  intro haccepted hflushed
  cases a with
  | accept =>
      have hreg := acceptStep_accepted hstep haccepted
      -- the accept changes the connection only, so the session was flushed before
      obtain rfl := acceptStep_of_registered hreg hstep
      exact hnot ⟨hreg, hflushed⟩
  | task i =>
      obtain ⟨task, hget, hstep⟩ := step_task hstep
      rw [(taskStep_frame hstep).1] at haccepted
      refine h haccepted (not_flushed_taskStep (fun hpc => hnot ⟨haccepted, ?_⟩) hstep hflushed)
      rw [hget, Option.map_some, hpc]

/-! ### From the delivery on -/

/-- The task will call `publishCachedMessage`, or is in its loop. -/
def TaskPc.isPending : TaskPc → Bool
  | .enqueued | .flushing .call | .flushing .loop => true
  | _ => false

/-- The session is flushed, or a task will see to it. -/
structure Cared (s : State) : Prop where
  sane : Sane s
  accepted : s.accept = .accepted
  flushed : Flushed s.session ∨
    ∃ (i : ℕ) (task : Task), s.tasks[i]? = some task ∧ task.pc.isPending

lemma getElem?_setPc (i j : ℕ) {task : Task} (hget : s.tasks[i]? = some task) (pc : TaskPc) :
    (setPc s i task pc).tasks[j]? =
      if j = i then some { task with pc := pc } else s.tasks[j]? :=
  getElem?_set_of_some hget _ j

/-- A task goes on: what was pending elsewhere is still, and here if the new place is. -/
lemma cared_setPc (s₁ : State) (hsane : Sane s') {i : ℕ} {task : Task}
    (hget : s₁.tasks[i]? = some task) {pc : TaskPc} (hs' : s' = setPc s₁ i task pc)
    (haccepted : s₁.accept = .accepted)
    (hflushed : Flushed s₁.session ∨ pc.isPending = true ∨
      ∃ (j : ℕ) (other : Task), j ≠ i ∧ s₁.tasks[j]? = some other ∧ other.pc.isPending = true) :
    Cared s' := by
  subst hs'
  refine ⟨hsane, haccepted, ?_⟩
  rcases hflushed with hf | hp | ⟨j, other, hne, hj, hp⟩
  · exact Or.inl hf
  · exact Or.inr ⟨i, _, (getElem?_setPc i i hget pc).trans (if_pos rfl), hp⟩
  · exact Or.inr ⟨j, other, ((getElem?_setPc i j hget pc).trans (if_neg hne)).trans hj, hp⟩

/-- A round after the accept leaves a session that is flushed, or goes on. -/
lemma cared_of_round (hsane : Sane s) (haccepted : s.accept = .accepted) {i : ℕ} {task : Task}
    (hget : s.tasks[i]? = some task) (hpc : task.pc = .flushing .loop)
    (hstep : step s (.task i) = some s') : Cared s' := by
  have hsane' := hsane.step hstep
  obtain ⟨task', hget', htask⟩ := step_task hstep
  obtain rfl := Option.some.inj (hget.symm.trans hget')
  have hstops := dequeueRound_stops s.session (hsane.connected haccepted)
    (hsane.inRange (by rw [haccepted]; rfl))
  simp only [taskStep, flushStep] at htask
  rw [hpc] at htask
  cases hround : s.session.dequeueRound with
  | mk goesOn session =>
      rw [hround] at htask hstops
      cases goesOn with
      -- the loop goes on, or it has seen an empty queue or a full window
      | true =>
          exact cared_setPc { s with session := session } hsane' hget (Option.some.inj htask).symm
            haccepted (Or.inr (Or.inl rfl))
      | false =>
          exact cared_setPc { s with session := session } hsane' hget (Option.some.inj htask).symm
            haccepted (Or.inl (hstops rfl))

/-- Another task is pending, unless it is this one. -/
lemma Cared.other (h : Cared s) {i : ℕ} {task : Task} (hget : s.tasks[i]? = some task)
    (hnot : task.pc.isPending = false) : Flushed s.session ∨
      ∃ (j : ℕ) (other : Task), j ≠ i ∧ s.tasks[j]? = some other ∧
        other.pc.isPending = true := by
  rcases h.flushed with hf | ⟨j, other, hj, hp⟩
  · exact Or.inl hf
  · refine Or.inr ⟨j, other, ?_, hj, hp⟩
    rintro rfl
    obtain rfl := Option.some.inj (hget.symm.trans hj)
    rw [hnot] at hp
    cases hp

lemma Cared.step (h : Cared s) {a : Action} (hok : StepOk s a) (hstep : step s a = some s') :
    Cared s' := by
  cases a with
  | accept =>
      have hstep' : acceptStep s = some s' := hstep
      simp only [acceptStep] at hstep'
      rw [h.accepted] at hstep'
      cases hstep'
  | task i =>
      have hsane' := h.sane.step hstep
      have hreg : s.registered = true := h.sane.registered (by rw [h.accepted]; rfl)
      obtain ⟨task, hget, htask⟩ := step_task hstep
      rcases taskStep_cases htask with ⟨hpc, hs'⟩ | ⟨hpc, hs'⟩ | ⟨hpc, hs'⟩ | ⟨hpc, hs'⟩ |
        ⟨flush, hpc, hs'⟩
      · refine cared_setPc s hsane' hget hs' h.accepted ?_
        exact (h.other hget (by rw [hpc]; rfl)).imp_right Or.inr
      · refine cared_setPc { s with
          session := (PersistentSessionWrapper.accepted s.session task.message task.qos).2 }
          hsane' hget hs' h.accepted ?_
        -- the task goes on to `publishCachedMessage` exactly if its message was enqueued
        by_cases henq : (PersistentSessionWrapper.accepted s.session task.message task.qos).1 =
            MsgConst.ENQUEUE_SUCCEEDED
        · rw [if_pos henq]
          exact Or.inr (Or.inl rfl)
        · rcases h.other hget (by rw [hpc]; rfl) with hf | hp
          · exact Or.inl ((handleMessage_spec
              (w := { s.session with ledger := s.session.ledger.accept task.qos })
              (s.session.copyMqttMessage task.message task.qos)).2 henq hf)
          · exact Or.inr (Or.inr hp)
      · exact cared_setPc { s with session := storeMessage s.session task.message task.qos }
          hsane' hget hs' h.accepted (Or.inr (Or.inl rfl))
      · -- the second lookup finds the wrapper
        rw [hreg, if_pos rfl] at hs'
        exact cared_setPc s hsane' hget hs' h.accepted (Or.inr (Or.inl rfl))
      · cases flush with
        | call =>
            simp only [flushStep] at hs'
            by_cases hcas : s.queueCas = true
            · -- too late for the flag, but whoever holds it is still in the loop
              obtain ⟨other, hmem, hloop⟩ := hok h.accepted
                (by rw [hget, Option.map_some, hpc]) hcas
              obtain ⟨j, hj⟩ := List.getElem?_of_mem hmem
              rw [if_pos hcas] at hs'
              refine cared_setPc s hsane' hget hs' h.accepted
                (Or.inr (Or.inr ⟨j, other, ?_, hj, by rw [hloop]; rfl⟩))
              rintro rfl
              obtain rfl := Option.some.inj (hget.symm.trans hj)
              rw [hpc] at hloop
              cases hloop
            · rw [if_neg hcas] at hs'
              exact cared_setPc { s with queueCas := true } hsane' hget hs' h.accepted
                (Or.inr (Or.inl rfl))
        | loop => exact cared_of_round h.sane h.accepted hget hpc hstep
        | stop =>
            refine cared_setPc { s with queueCas := false } hsane' hget hs' h.accepted ?_
            exact (h.other hget (by rw [hpc]; rfl)).imp_right Or.inr

/-- A step that delivers leaves the session cared for. -/
lemma cared_of_delivers (hsane : Sane s) {a : Action} (hdel : Delivers s a)
    (hstep : step s a = some s') : Cared s' := by
  cases a with
  | task i =>
      obtain ⟨task, hget, -⟩ := step_task hstep
      obtain ⟨haccepted, hpc⟩ := hdel
      rw [hget, Option.map_some, Option.some.injEq] at hpc
      exact cared_of_round hsane haccepted hget hpc hstep
  | accept =>
      obtain ⟨hreg, hflushed⟩ := hdel
      have hsane' := hsane.step hstep
      obtain rfl := acceptStep_of_registered hreg hstep
      exact ⟨hsane', rfl, Or.inl hflushed⟩

lemma Start.sane (h : Start s) : Sane s := by
  refine ⟨fun hb => ?_, fun hb => ?_, fun hb => ?_⟩ <;> rw [h.accept] at hb <;>
    exact absurd hb (by simp [AcceptPc.isBuilt, AcceptPc.isRegistered])

/-- **When the offline messages are delivered.**  For every stored session and any deliveries, in
every interleaving in which no call after the accept comes too late for a loop that has ended:
when all have finished, the endpoint is connected, and the queue is empty or the window full iff
this was so at the accept, or a delivery ran a round of `dequeue` after it. -/
theorem flushed_iff (s : State) (hs : Start s) (actions : List Action)
    (hok : AllSteps step StepOk s actions) (t : State) (hrun : run step s actions = some t)
    (hfinished : Finished t) :
    t.session.endpoint.isConnected = true ∧
      (Flushed t.session ↔ SomeStep step Delivers s actions) := by
  have hsane : Sane t := invariant_run (P := fun _ _ => True)
    (fun u a u' _ hu _ hstep => hu.step hstep) hs.sane
    (hok.imp fun _ _ _ => trivial) hrun
  refine ⟨hsane.connected hfinished.1, fun hflushed => ?_, fun hsome => ?_⟩
  · by_contra hnot
    have hlate : t.accept = .accepted → ¬Flushed t.session :=
      invariant_run (fun u a u' _ hu hnotDel hstep => not_flushed_step hu hnotDel hstep)
        (fun haccepted => by rw [hs.accept] at haccepted; exact absurd haccepted (by simp))
        (not_someStep.1 hnot) hrun
    exact hlate hfinished.1 hflushed
  · have hcared : Cared t := established_run
      (fun u a u' hu _ hstep => Sane.step hu hstep)
      (fun u a u' hu _ hdel hstep => cared_of_delivers hu hdel hstep)
      (fun u a u' hu huok hstep => Cared.step hu huok hstep) hs.sane hok hsome hrun
    rcases hcared.flushed with hf | ⟨i, task, hget, hp⟩
    · exact hf
    · have hdone := hfinished.2 task (List.mem_of_getElem? hget)
      rw [hdone] at hp
      exact absurd hp (by simp [TaskPc.isPending])

/-- A client that is offline, with one stored message. -/
def offline (tasks : List Task) : State where
  session := new sampleConfig (MqttEndpoint.create 0 ['c'] false) [sampleMessage] (.create 10)
    .empty
  registered := false
  queueCas := false
  accept := .start
  tasks := tasks

/-- `handleAccept` from its first step to its last. -/
def acceptSteps : List Action := replicate 10 .accept

lemma start_offline {tasks : List Task} (h : ∀ task ∈ tasks, task.pc = .start) :
    Start (offline tasks) := ⟨rfl, rfl, h⟩

/-- A message that comes in after the accept and is handed to the wrapper. -/
def late : Task := ⟨sampleMessage, .atLeastOnce, .start⟩

/-- It is enqueued, and its task sends both messages. -/
theorem flushed_iff_late : ∃ t, run step (offline [late]) (acceptSteps ++ replicate 7 (.task 0)) =
    some t ∧ t.session.queue.items = [] ∧ t.session.endpoint.isConnected = true ∧
      (Flushed t.session ↔
        SomeStep step Delivers (offline [late]) (acceptSteps ++ replicate 7 (.task 0))) := by
  obtain ⟨t, hrun, hqueue, hfinished⟩ : ∃ t,
      run step (offline [late]) (acceptSteps ++ replicate 7 (.task 0)) = some t ∧
        t.session.queue.items = [] ∧ Finished t := by
    exact ⟨_, rfl, by decide, by decide, by decide⟩
  exact ⟨t, hrun, hqueue, flushed_iff (offline [late]) (start_offline (by decide)) _ (by decide) t
    hrun hfinished⟩

/-- Without a message that comes in later the stored message stays where it is. -/
theorem not_flushed_offline : ¬∀ (s : State), Start s → ∀ (actions : List Action) (t : State),
    run step s actions = some t → Finished t → Flushed t.session := by
  intro h
  have hflushed : ∀ t ∈ run step (offline []) acceptSteps, Finished t → Flushed t.session :=
    fun t => h (offline []) (start_offline (by simp)) acceptSteps t
  revert hflushed
  decide

end Reconnect

end Stuart
