/-
The methods of a transient session when several of them run at once.

A call is given by its next access (`Access`): to the queue, the inflight map, the timers, the
endpoint or one of the two flags, or to a field of a message.  `exec` is one access.  One method of
a container is one access, also `addExt` of `BoundedConcurrentLinkedQueue`, which makes several
calls of the queue under it; the metrics and the log, which only read sizes, are left out.  Messages
are objects that several calls can hold and change, so a call holds a reference, and the fields are
in a heap.

Between the two flags the methods have one part in common: from `nextMessageId` to the PUBLISH and
the release of `inflightCas`.  `Caller` tells which of the three methods runs it.

The log is ghost state, and so is the number that a call keeps with its packet id.
-/
import Stuart.Lib.Pool
import Stuart.Sessions.SessionWrapper

namespace Stuart

open List Lib

namespace Calls

/-- What was done with the messages, in this order. -/
inductive Event where
  /-- put into the inflight map -/
  | stored (m : ℕ) (messageId : ℤ)
  /-- the PUBLISH of a message of QoS 0 that `handleMessage` sent itself -/
  | direct (m : ℕ) (messageId : ℤ)
  /-- the PUBLISH of a message of QoS 0 that `dequeue` had just polled -/
  | polled (m : ℕ) (messageId : ℤ)
  /-- the PUBLISH of a message that was stored before -/
  | published (m : ℕ) (qos : MqttQoS) (messageId : ℤ)
  /-- found by PUBACK or PUBCOMP -/
  | acknowledged (m : ℕ)
deriving DecidableEq

def Event.isDirect : Event → Bool
  | .direct _ _ => true
  | .stored _ _ | .polled _ _ | .published _ _ _ | .acknowledged _ => false

structure State where
  config : Config
  thisClientId : Str
  endpoint : MqttEndpoint
  /-- the messages by reference -/
  heap : ℕ → MqttMessage
  /-- how many messages there are -/
  created : ℕ
  queue : BoundedQueue ℕ
  inflights : PlainMap ℤ ℕ
  timeouts : List ℤ
  queueCas : Bool
  inflightCas : Bool
  log : List Event

/-- A method with a part in which it holds `inflightCas`. -/
inductive Caller where
  | inflight
  | dequeue
  /-- with the packet id that the message had -/
  | retryInflight (old : ℤ)
deriving DecidableEq

/-- A retry marks its PUBLISH as a duplicate. -/
def Caller.everPublished : Caller → Bool
  | .retryInflight _ => true
  | .inflight | .dequeue => false

/-- The next access of a call that holds the message `m`.  Where a method makes the same checks
before and after it takes `inflightCas`, `locked` tells which ones they are. -/
inductive Access where
  /-- the call has returned -/
  | done
  -- `handleMessage` with QoS 0
  | handleIsEmpty (m : ℕ)
  | sendIsConnected (m : ℕ)
  | sendPublish (m : ℕ)
  -- `enqueue`
  | addExt (m : ℕ) (locked : Bool)
  -- `inflight`
  | inflightIsEmpty (m : ℕ) (locked : Bool)
  | inflightIsFull (m : ℕ) (locked : Bool)
  | takeInflightCas (m : ℕ)
  -- `dequeue`
  | takeQueueCas
  | dequeueIsConnected (locked : Bool)
  | dequeueIsEmpty (locked : Bool)
  | dequeueIsFull (locked : Bool)
  | dequeueTakeInflightCas
  | poll
  | polledIsConnected (m : ℕ)
  | polledPublish (m : ℕ)
  | releaseInflightCas
  | releaseQueueCas
  -- what the three methods do alike; `before` counts the direct messages when the id was read
  | nextIsConnected (caller : Caller) (m : ℕ)
  | nextLastMessageId (caller : Caller) (m : ℕ)
  | setMessageId (caller : Caller) (m : ℕ) (messageId : ℤ) (before : ℕ)
  | setRetry (m : ℕ) (old messageId : ℤ) (before : ℕ)
  | removeOld (m : ℕ) (old messageId : ℤ) (before : ℕ)
  | put (caller : Caller) (m : ℕ) (messageId : ℤ) (before : ℕ)
  | saveTimeout (caller : Caller) (m : ℕ) (messageId : ℤ) (before : ℕ)
  | publishIsConnected (caller : Caller) (m : ℕ) (messageId : ℤ) (before : ℕ)
  | publish (caller : Caller) (m : ℕ) (messageId : ℤ) (before : ℕ)
  | lastMessageId (caller : Caller)
  | release (caller : Caller) (result : ℤ)
  -- `receivePuback` and `receivePubcomp`
  | remove (messageId : ℤ)
  | deleteTimeout (messageId : ℤ)
  -- `receivePubrec`
  | pubrecGet (messageId : ℤ)
  | setStatus (m : ℕ)
  -- `retry` and the rest of `retryInflight`
  | retryGet (messageId : ℤ)
  | getRetry (m : ℕ) (messageId : ℤ)
  | removeExpired (messageId : ℤ)
  | getMessageId (m : ℕ)
  | getStatus (m : ℕ) (old : ℤ)
  | setRetryReceived (m : ℕ) (old : ℤ)
  | saveTimeoutReceived (old : ℤ)
  | publishRelease (old : ℤ)
  | retryTakeInflightCas (m : ℕ) (old : ℤ)
deriving DecidableEq

namespace State

def isInflightFull (s : State) : Bool :=
  decide (s.config.sessionInflightMaxCapacity > 0 ∧
    ((PlainMap.values s.inflights).length : ℤ) ≥ s.config.sessionInflightMaxCapacity)

/-- The messages of QoS 0 that `handleMessage` has sent itself. -/
def directs (s : State) : ℕ := s.log.countP Event.isDirect

/-- `endpoint.publish`; `none` for the exception. -/
def endpointPublish (s : State) (m : ℕ) (everPublished : Bool) (event : ℤ → Event) :
    Option State :=
  let message := s.heap m
  (s.endpoint.publish m message.topic message.payload message.qos
    (if everPublished then true else message.dup) message.retain).map fun endpoint =>
      { s with endpoint := endpoint, log := s.log ++ [event endpoint.lastMessageId] }

/-- A field of a message is set. -/
def modify (s : State) (m : ℕ) (f : MqttMessage → MqttMessage) : State :=
  { s with heap := Function.update s.heap m (f (s.heap m)) }

end State

/-- After `handleMessage`, whose result decides whether `publishMessage` goes on to `dequeue`. -/
def afterHandle (result : ℤ) : Access :=
  if result = MsgConst.ENQUEUE_SUCCEEDED then .takeQueueCas else .done

/-- The `break` of the loop of `dequeue`. -/
def stop (locked : Bool) : Access := if locked then .releaseInflightCas else .releaseQueueCas

/-- There is no packet id. -/
def noMessageId (m : ℕ) : Caller → Access
  | .inflight => .addExt m true
  | .dequeue => .releaseInflightCas
  | .retryInflight old => .release (.retryInflight old) MsgConst.PUBLISH_ERROR

/-- A retry counts, and takes the message out from under its old id. -/
def afterSetMessageId (m : ℕ) (messageId : ℤ) (before : ℕ) : Caller → Access
  | .retryInflight old => .setRetry m old messageId before
  | .inflight => .put .inflight m messageId before
  | .dequeue => .put .dequeue m messageId before

/-- After the release of `inflightCas`. -/
def afterRelease (result : ℤ) : Caller → Access
  | .inflight => afterHandle result
  | .dequeue => .dequeueIsConnected false
  | .retryInflight _ => .done

def exec (s : State) : Access → State × Access
  | .done => (s, .done)
  | .handleIsEmpty m => (s, if s.queue.items.isEmpty then .sendIsConnected m else .addExt m false)
  | .sendIsConnected m => (s, if s.endpoint.isConnected then .sendPublish m else .done)
  | .sendPublish m =>
      match s.endpointPublish m false (.direct m) with
      | none => (s, .done)
      | some s' => (s', .done)
  | .addExt m locked =>
      let added := BoundedConcurrentLinkedQueue.addExt s.queue m
      let result := if added.1 ≥ 0 then MsgConst.ENQUEUE_SUCCEEDED else MsgConst.ENQUEUE_FAILED
      ({ s with queue := added.2 },
        -- with the flag, `inflight` returns the result after the `finally`
        if locked then .release .inflight result else afterHandle result)
  | .inflightIsEmpty m locked =>
      (s, if s.queue.items.isEmpty then .inflightIsFull m locked else .addExt m locked)
  | .inflightIsFull m locked =>
      (s, if s.isInflightFull then .addExt m locked
        else if locked then .nextIsConnected .inflight m else .takeInflightCas m)
  | .takeInflightCas m =>
      -- the loop of `takeInflightCas` goes round until the flag is free
      if s.inflightCas then (s, .takeInflightCas m)
      else ({ s with inflightCas := true }, .inflightIsEmpty m true)
  | .takeQueueCas =>
      -- `dequeue` does not wait for its flag
      if s.queueCas then (s, .done) else ({ s with queueCas := true }, .dequeueIsConnected false)
  | .dequeueIsConnected locked =>
      (s, if s.endpoint.isConnected then .dequeueIsEmpty locked else stop locked)
  | .dequeueIsEmpty locked =>
      (s, if s.queue.items.isEmpty then stop locked else .dequeueIsFull locked)
  | .dequeueIsFull locked =>
      (s, if s.isInflightFull then stop locked
        else if locked then .poll else .dequeueTakeInflightCas)
  | .dequeueTakeInflightCas =>
      if s.inflightCas then (s, .dequeueTakeInflightCas)
      else ({ s with inflightCas := true }, .dequeueIsConnected true)
  | .poll =>
      match s.queue.items with
      | [] => (s, .releaseInflightCas)
      | m :: rest =>
          ({ s with queue := { s.queue with items := rest } },
            if (s.heap m).qos = .atMostOnce then .polledIsConnected m
            else .nextIsConnected .dequeue m)
  | .polledIsConnected m =>
      (s, if s.endpoint.isConnected then .polledPublish m else .releaseInflightCas)
  | .polledPublish m =>
      match s.endpointPublish m false (.polled m) with
      | none => (s, .releaseInflightCas)
      -- the `else` of the source: a message of QoS 0 that was sent is also given an id, and stored
      | some s' => (s', .nextIsConnected .dequeue m)
  | .releaseInflightCas => ({ s with inflightCas := false }, .releaseQueueCas)
  | .releaseQueueCas => ({ s with queueCas := false }, .done)
  | .nextIsConnected caller m =>
      (s, if s.endpoint.isConnected then .nextLastMessageId caller m else noMessageId m caller)
  | .nextLastMessageId caller m =>
      let messageId := nextId s.endpoint.lastMessageId
      (s, if messageId > 0 then .setMessageId caller m messageId s.directs
        else noMessageId m caller)
  | .setMessageId caller m messageId before =>
      (s.modify m fun message => { message with messageId := messageId },
        afterSetMessageId m messageId before caller)
  | .setRetry m old messageId before =>
      (s.modify m fun message => { message with retry := message.retry + 1 },
        .removeOld m old messageId before)
  | .removeOld m old messageId before =>
      -- what `remove` returns is not looked at
      ({ s with inflights := s.inflights.remove old }, .put (.retryInflight old) m messageId before)
  | .put caller m messageId before =>
      ({ s with inflights := s.inflights.put messageId m, log := s.log ++ [.stored m messageId] },
        .saveTimeout caller m messageId before)
  | .saveTimeout caller m messageId before =>
      ({ s with timeouts := s.timeouts.insert messageId },
        .publishIsConnected caller m messageId before)
  | .publishIsConnected caller m messageId before =>
      (s, if s.endpoint.isConnected then .publish caller m messageId before
        else .release caller MsgConst.PUBLISH_ERROR)
  | .publish caller m _ _ =>
      match s.endpointPublish m caller.everPublished (.published m (s.heap m).qos) with
      | none => (s, .release caller MsgConst.PUBLISH_ERROR)
      | some s' => (s', if (s.heap m).qos = .atMostOnce then .release caller 0
          else .lastMessageId caller)
  | .lastMessageId caller => (s, .release caller s.endpoint.lastMessageId)
  | .release caller result => ({ s with inflightCas := false }, afterRelease result caller)
  | .remove messageId =>
      ({ s with
          inflights := s.inflights.remove messageId
          log := s.log ++ (s.inflights.get messageId).toList.map .acknowledged },
        .deleteTimeout messageId)
  | .deleteTimeout messageId =>
      ({ s with timeouts := s.timeouts.filter (· ≠ messageId) }, .takeQueueCas)
  | .pubrecGet messageId =>
      (s, match s.inflights.get messageId with
        | none => .done
        | some m => .setStatus m)
  | .setStatus m =>
      (s.modify m fun message => { message with status := MsgConst.PUBREC_STATUS }, .done)
  | .retryGet messageId =>
      (s, match s.inflights.get messageId with
        | none => .done
        | some m => .getRetry m messageId)
  | .getRetry m messageId =>
      (s, if (s.heap m).retry ≥ s.config.sessionInflightMaxRetries then .removeExpired messageId
        else .getMessageId m)
  | .removeExpired messageId =>
      ({ s with inflights := s.inflights.remove messageId }, .takeQueueCas)
  | .getMessageId m => (s, .getStatus m (s.heap m).messageId)
  | .getStatus m old =>
      -- a message of QoS 2 after its PUBREC keeps its id: only the PUBREL is sent again
      (s, if (s.heap m).qos = .exactlyOnce ∧ (s.heap m).status = MsgConst.PUBREC_STATUS then
          .setRetryReceived m old
        else .retryTakeInflightCas m old)
  | .setRetryReceived m old =>
      (s.modify m fun message => { message with retry := message.retry + 1 },
        .saveTimeoutReceived old)
  | .saveTimeoutReceived old =>
      ({ s with timeouts := s.timeouts.insert old }, .publishRelease old)
  | .publishRelease old =>
      ({ s with endpoint := (s.endpoint.publishRelease old).getD s.endpoint }, .done)
  | .retryTakeInflightCas m old =>
      if s.inflightCas then (s, .retryTakeInflightCas m old)
      else ({ s with inflightCas := true }, .nextIsConnected (.retryInflight old) m)

/-- A call of a method, or an event of the connection, which is over at once. -/
inductive Call where
  | publishMessage (message : MqttMessage) (qos : MqttQoS)
  | publishCachedMessage
  | receivePuback (messageId : ℤ)
  | receivePubrec (messageId : ℤ)
  | receivePubcomp (messageId : ℤ)
  | retry (messageId : ℤ)
  | accept
  | close

/-- The call of `handleMessage` with a message. -/
def handleMessage (config : Config) (m : ℕ) (qos : MqttQoS) : Access :=
  if qos = .atMostOnce then
    if config.sessionQueueStoreQos0 then .handleIsEmpty m else .sendIsConnected m
  else .inflightIsEmpty m false

def start : Call → State → State × Access
  | .publishMessage message qos, s =>
      -- the copy of the message is a new object
      ({ s with
          heap := Function.update s.heap s.created
            { message with uid := s.created, clientId := s.thisClientId, qos := qos }
          created := s.created + 1 },
        handleMessage s.config s.created qos)
  | .publishCachedMessage, s => (s, .takeQueueCas)
  | .receivePuback messageId, s | .receivePubcomp messageId, s => (s, .remove messageId)
  | .receivePubrec messageId, s => (s, .pubrecGet messageId)
  | .retry messageId, s => (s, .retryGet messageId)
  | .accept, s => ({ s with endpoint := s.endpoint.accept.getD s.endpoint }, .done)
  | .close, s => ({ s with endpoint := s.endpoint.close }, .done)

/-- The session and the calls that were made. -/
abbrev Run := Pool State Access

def step (r : Run) (move : Move Call) : Option Run := r.step start exec move

/-- A new session. -/
def init (config : Config) (endpoint : MqttEndpoint) : Run where
  shared :=
    { config, endpoint
      thisClientId := endpoint.clientIdentifier
      heap := fun _ => ⟨0, [], 0, [], [], .atMostOnce, false, false, 0, 0⟩
      created := 0
      queue := ⟨config.sessionQueueMaxCapacity, []⟩
      inflights := ∅
      timeouts := []
      queueCas := false
      inflightCas := false
      log := [] }
  tasks := []

/-! ### The endpoint -/

namespace State

/-- The state after a PUBLISH of the message. -/
def sent (s : State) (m : ℕ) (everPublished : Bool) (event : Event) : State :=
  let message := s.heap m
  { s with
    endpoint := { s.endpoint with
      lastMessageId := nextId s.endpoint.lastMessageId
      written := s.endpoint.written ++ [.publish (nextId s.endpoint.lastMessageId) m message.topic
        message.payload message.qos (if everPublished then true else message.dup) message.retain] }
    log := s.log ++ [event] }

lemma endpointPublish_eq (s : State) (m : ℕ) (everPublished : Bool) (event : ℤ → Event) :
    s.endpointPublish m everPublished event = if s.endpoint.isConnected then
      some (s.sent m everPublished (event (nextId s.endpoint.lastMessageId))) else none := by
  unfold endpointPublish MqttEndpoint.publish
  dsimp only
  by_cases hc : s.endpoint.isConnected = true
  · rw [if_pos hc, if_pos hc]
    rfl
  · rw [if_neg hc, if_neg hc]
    rfl

end State

lemma exec_sendPublish (s : State) (m : ℕ) :
    exec s (.sendPublish m) = if s.endpoint.isConnected then
      (s.sent m false (.direct m (nextId s.endpoint.lastMessageId)), .done) else (s, .done) := by
  simp only [exec, State.endpointPublish_eq]
  split_ifs <;> rfl

lemma exec_polledPublish (s : State) (m : ℕ) :
    exec s (.polledPublish m) = if s.endpoint.isConnected then
      (s.sent m false (.polled m (nextId s.endpoint.lastMessageId)),
        .nextIsConnected .dequeue m) else (s, .releaseInflightCas) := by
  simp only [exec, State.endpointPublish_eq]
  split_ifs <;> rfl

lemma exec_publish (s : State) (caller : Caller) (m : ℕ) (messageId : ℤ) (before : ℕ) :
    exec s (.publish caller m messageId before) = if s.endpoint.isConnected then
      (s.sent m caller.everPublished
          (.published m (s.heap m).qos (nextId s.endpoint.lastMessageId)),
        if (s.heap m).qos = .atMostOnce then .release caller 0 else .lastMessageId caller)
      else (s, .release caller MsgConst.PUBLISH_ERROR) := by
  simp only [exec, State.endpointPublish_eq]
  split_ifs <;> rfl

/-- An access leaves the configuration and the connection as they are, and creates no message. -/
lemma frame_exec (s : State) (t : Access) :
    (exec s t).1.config = s.config ∧
      (exec s t).1.endpoint.isConnected = s.endpoint.isConnected ∧
      (exec s t).1.created = s.created := by
  cases t
  case' sendPublish m => rw [exec_sendPublish]
  case' polledPublish m => rw [exec_polledPublish]
  case' publish caller m messageId before => rw [exec_publish]
  case' publishRelease old =>
    dsimp only [exec]
    rw [MqttEndpoint.publishRelease]
  case' poll =>
    dsimp only [exec]
    split
  all_goals try dsimp only [exec]
  all_goals try split_ifs
  all_goals exact ⟨rfl, rfl, rfl⟩

/-- The counter stays in its range. -/
lemma inRange_exec {s : State} (h : s.endpoint.InRange) (t : Access) :
    (exec s t).1.endpoint.InRange := by
  have hnext : 0 ≤ nextId s.endpoint.lastMessageId ∧
      nextId s.endpoint.lastMessageId ≤ MsgConst.MAX_MESSAGE_ID := by
    have hrange := nextId_range h
    exact ⟨by omega, hrange.2⟩
  cases t
  case' sendPublish m => rw [exec_sendPublish]
  case' polledPublish m => rw [exec_polledPublish]
  case' publish caller m messageId before => rw [exec_publish]
  case' publishRelease old =>
    dsimp only [exec]
    simp only [MqttEndpoint.publishRelease]
  case' poll =>
    dsimp only [exec]
    split
  all_goals try dsimp only [exec]
  all_goals try split_ifs
  all_goals first | exact h | exact hnext

/-- What an access notes. -/
def notes (s : State) : Access → List Event
  | .put _ m messageId _ => [.stored m messageId]
  | .sendPublish m =>
      if s.endpoint.isConnected then [.direct m (nextId s.endpoint.lastMessageId)] else []
  | .polledPublish m =>
      if s.endpoint.isConnected then [.polled m (nextId s.endpoint.lastMessageId)] else []
  | .publish _ m _ _ =>
      if s.endpoint.isConnected then
        [.published m (s.heap m).qos (nextId s.endpoint.lastMessageId)]
      else []
  | .remove messageId => (s.inflights.get messageId).toList.map .acknowledged
  | _ => []

lemma log_exec (s : State) (t : Access) : (exec s t).1.log = s.log ++ notes s t := by
  cases t
  case put caller m messageId before => rfl
  case remove messageId => rfl
  case sendPublish m =>
    rw [exec_sendPublish]
    by_cases hc : s.endpoint.isConnected = true <;> simp [notes, State.sent, hc]
  case polledPublish m =>
    rw [exec_polledPublish]
    by_cases hc : s.endpoint.isConnected = true <;> simp [notes, State.sent, hc]
  case publish caller m messageId before =>
    rw [exec_publish]
    by_cases hc : s.endpoint.isConnected = true <;> simp [notes, State.sent, hc]
  case poll =>
    dsimp only [exec]
    cases s.queue.items <;> exact (append_nil _).symm
  all_goals try dsimp only [exec]
  all_goals try split_ifs
  all_goals exact (append_nil _).symm

/-! ### The next access -/

section Next

variable {β : Type*} (f : Access → β) (result : ℤ)

lemma apply_afterHandle (hqueue : f .takeQueueCas = f .done) :
    f (afterHandle result) = f .done := by
  simp only [afterHandle]
  split_ifs
  · exact hqueue
  · rfl

lemma apply_stop (locked : Bool) (h : f .releaseInflightCas = f .releaseQueueCas) :
    f (stop locked) = f .releaseQueueCas := by
  cases locked with
  | false => rfl
  | true => exact h

lemma apply_afterRelease (caller : Caller) (hqueue : f .takeQueueCas = f .done)
    (hloop : f (.dequeueIsConnected false) = f .done) :
    f (afterRelease result caller) = f .done := by
  cases caller with
  | inflight => exact apply_afterHandle f result hqueue
  | dequeue => exact hloop
  | retryInflight old => rfl

lemma apply_handleMessage (config : Config) (m : ℕ) (qos : MqttQoS) {b : β}
    (hempty : f (.handleIsEmpty m) = b) (hsend : f (.sendIsConnected m) = b)
    (hinflight : f (.inflightIsEmpty m false) = b) : f (handleMessage config m qos) = b := by
  simp only [handleMessage]
  split_ifs
  · exact hempty
  · exact hsend
  · exact hinflight

end Next

/-- The beginning of a call creates at most a message, and leaves the rest but the connection as it
is. -/
lemma frame_start (call : Call) (s : State) :
    (start call s).1.config = s.config ∧ (start call s).1.queue = s.queue ∧
      (start call s).1.inflights = s.inflights ∧ (start call s).1.log = s.log ∧
      s.created ≤ (start call s).1.created ∧
      (start call s).1.endpoint.lastMessageId = s.endpoint.lastMessageId := by
  cases call with
  | publishMessage message qos => exact ⟨rfl, rfl, rfl, rfl, Nat.le_succ _, rfl⟩
  | accept =>
      dsimp only [start]
      rw [MqttEndpoint.accept]
      split_ifs <;> exact ⟨rfl, rfl, rfl, rfl, le_rfl, rfl⟩
  | publishCachedMessage | receivePuback messageId | receivePubrec messageId
  | receivePubcomp messageId | retry messageId | close =>
      exact ⟨rfl, rfl, rfl, rfl, le_rfl, rfl⟩

/-! ### The flag -/

/-- The calls that hold `inflightCas`. -/
def inside : Access → Bool
  | .addExt _ locked | .inflightIsEmpty _ locked | .inflightIsFull _ locked
  | .dequeueIsConnected locked | .dequeueIsEmpty locked | .dequeueIsFull locked => locked
  | .poll | .polledIsConnected _ | .polledPublish _ | .releaseInflightCas
  | .nextIsConnected _ _ | .nextLastMessageId _ _ | .setMessageId _ _ _ _ | .setRetry _ _ _ _
  | .removeOld _ _ _ _ | .put _ _ _ _ | .saveTimeout _ _ _ _ | .publishIsConnected _ _ _ _
  | .publish _ _ _ _ | .lastMessageId _ | .release _ _ => true
  | .done | .handleIsEmpty _ | .sendIsConnected _ | .sendPublish _ | .takeInflightCas _
  | .takeQueueCas | .dequeueTakeInflightCas | .releaseQueueCas | .remove _ | .deleteTimeout _
  | .pubrecGet _ | .setStatus _ | .retryGet _ | .getRetry _ _ | .removeExpired _ | .getMessageId _
  | .getStatus _ _ | .setRetryReceived _ _ | .saveTimeoutReceived _ | .publishRelease _
  | .retryTakeInflightCas _ _ => false

@[simp] lemma inside_afterHandle (result : ℤ) : inside (afterHandle result) = false :=
  apply_afterHandle inside result rfl

@[simp] lemma inside_stop (locked : Bool) : inside (stop locked) = locked := by
  cases locked <;> rfl

@[simp] lemma inside_noMessageId (m : ℕ) (caller : Caller) :
    inside (noMessageId m caller) = true := by
  cases caller <;> rfl

@[simp] lemma inside_afterRelease (result : ℤ) (caller : Caller) :
    inside (afterRelease result caller) = false :=
  apply_afterRelease inside result caller rfl rfl

@[simp] lemma inside_afterSetMessageId (m : ℕ) (messageId : ℤ) (before : ℕ) (caller : Caller) :
    inside (afterSetMessageId m messageId before caller) = true := by
  cases caller <;> rfl

/-- `inflightCas` is taken by the three methods and given back by the two releases. -/
lemma lockStep_exec (s : State) (t : Access) :
    Pool.LockStep State.inflightCas inside s t (exec s t) := by
  simp only [Pool.LockStep]
  cases t
  case' sendPublish m => rw [exec_sendPublish]
  case' polledPublish m => rw [exec_polledPublish]
  case' publish caller m messageId before => rw [exec_publish]
  case' poll =>
    dsimp only [exec]
    split
  case' pubrecGet messageId | retryGet messageId =>
    dsimp only [exec]
    split
  all_goals try dsimp only [exec]
  all_goals try split_ifs
  all_goals try simp only [inside_afterHandle, inside_stop, inside_noMessageId,
    inside_afterRelease, inside_afterSetMessageId]
  all_goals simp [inside, State.modify, State.sent, *]

/-- A call begins outside. -/
lemma inside_start (call : Call) (s : State) :
    (start call s).1.inflightCas = s.inflightCas ∧ inside (start call s).2 = false := by
  cases call with
  | publishMessage message qos => exact ⟨rfl, apply_handleMessage inside _ _ _ rfl rfl rfl⟩
  | publishCachedMessage | receivePuback | receivePubrec | receivePubcomp | retry | accept
  | close => exact ⟨rfl, rfl⟩

/-- At most one call is between taking and giving back `inflightCas`. -/
def Exclusive (r : Run) : Prop := r.Exclusive State.inflightCas inside

lemma Exclusive.step {r r' : Run} (h : Exclusive r) {move : Move Call}
    (hstep : step r move = some r') : Exclusive r' := by
  cases move with
  | call call =>
      obtain rfl := Option.some.inj hstep
      obtain ⟨hflag, hout⟩ := inside_start call r.shared
      exact Pool.Exclusive.append h hflag hout
  | run index =>
      obtain ⟨t, ht, rfl⟩ := Pool.step_run hstep
      exact Pool.Exclusive.set h ht (lockStep_exec r.shared t)

lemma exclusive_init (config : Config) (endpoint : MqttEndpoint) :
    Exclusive (init config endpoint) := rfl

end Calls

end Stuart
