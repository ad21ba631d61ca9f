/-
A session and its client: when a QoS 2 message is delivered once.

The client remembers the packet id of a QoS 2 PUBLISH until the PUBREL and passes on only the
first PUBLISH of an id it remembers.  That protects a message as long as it is sent again under
the id it had.  `retryInflight` sends a message again under a new id, so a message whose PUBREC
has not been processed when its timer runs out is passed on twice.  In a run in which no retry
sends a QoS 2 message again (`StepOk`) every message is on the wire once at most, whatever the
order of the tasks, the timers and the packets (`delivered_once_run`).
-/
import Stuart.Sessions.Conservation

namespace Stuart

open List Lib

namespace Delivery

open SessionWrapper

/-- A packet that the client writes to the broker. -/
inductive ClientPacket where
  | puback (messageId : ℤ)
  | pubrec (messageId : ℤ)
  | pubcomp (messageId : ℤ)
deriving DecidableEq

/-- A task that was started and has not run yet. -/
inductive Task where
  /-- `handlePublishAcknowledge` -/
  | puback (messageId : ℤ)
  /-- `handlePublishReceived`, the blocking part -/
  | pubrec (messageId : ℤ)
  /-- `handlePublishReceived`, the result handler -/
  | pubrel (messageId : ℤ)
  /-- `handlePublishCompletion` -/
  | pubcomp (messageId : ℤ)
  /-- the listener of an expired timer -/
  | retry (messageId : ℤ)
deriving DecidableEq

/-- The two parties and what is between them. -/
structure Net (kind : SessionKind) where
  wrapper : SessionWrapper kind
  /-- the tasks that may run next, in any order -/
  tasks : List Task
  /-- the packets on their way to the broker, the first one in front -/
  up : List ClientPacket
  /-- the packet ids that the client remembers -/
  remembered : List ℤ
  /-- the messages that the client has passed on to its application -/
  delivered : List ℕ

inductive Action where
  | accept
  | close
  | publishMessage (message : MqttMessage) (qos : MqttQoS)
  | publishCachedMessage
  /-- the client receives the next packet -/
  | clientReceive
  /-- the broker receives the next packet and starts its task -/
  | serverReceive
  /-- the timer of a packet id runs out -/
  | expire (messageId : ℤ)
  /-- the task in this place runs -/
  | runTask (index : ℕ)

variable {kind : SessionKind}

/-- What the client does with a packet. -/
def clientHandle (s : Net kind) : MqttPacket → Net kind
  | .publish messageId uid _ _ qos _ _ =>
      match qos with
      | .atMostOnce => { s with delivered := s.delivered ++ [uid] }
      | .atLeastOnce =>
          { s with delivered := s.delivered ++ [uid], up := s.up ++ [.puback messageId] }
      | .exactlyOnce =>
          if messageId ∈ s.remembered then { s with up := s.up ++ [.pubrec messageId] }
          else
            { s with
              delivered := s.delivered ++ [uid]
              remembered := messageId :: s.remembered
              up := s.up ++ [.pubrec messageId] }
  | .pubrel messageId =>
      { s with
        remembered := s.remembered.filter (· ≠ messageId)
        up := s.up ++ [.pubcomp messageId] }

def ClientPacket.task : ClientPacket → Task
  | .puback messageId => .puback messageId
  | .pubrec messageId => .pubrec messageId
  | .pubcomp messageId => .pubcomp messageId

def runTask (s : Net kind) : Task → Net kind
  | .puback messageId => { s with wrapper := s.wrapper.receivePuback messageId }
  | .pubrec messageId =>
      { s with
        wrapper := s.wrapper.receivePubrec messageId
        tasks := s.tasks ++ [.pubrel messageId] }
  | .pubrel messageId => { s with wrapper := (s.wrapper.publishRelease messageId).2 }
  | .pubcomp messageId => { s with wrapper := s.wrapper.receivePubcomp messageId }
  | .retry messageId => { s with wrapper := s.wrapper.retry messageId }

def step (s : Net kind) : Action → Option (Net kind)
  | .accept => s.wrapper.endpoint.accept.map fun endpoint =>
      { s with wrapper := { s.wrapper with endpoint := endpoint } }
  | .close => some { s with wrapper := { s.wrapper with endpoint := s.wrapper.endpoint.close } }
  | .publishMessage message qos => some { s with wrapper := s.wrapper.publishMessage message qos }
  | .publishCachedMessage => some { s with wrapper := s.wrapper.publishCachedMessage }
  | .clientReceive =>
      match s.wrapper.endpoint.written with
      | [] => none
      | packet :: rest => some (clientHandle { s with wrapper := { s.wrapper with
          endpoint := { s.wrapper.endpoint with written := rest } } } packet)
  | .serverReceive =>
      match s.up with
      | [] => none
      | packet :: rest => some { s with up := rest, tasks := s.tasks ++ [packet.task] }
  | .expire messageId =>
      if messageId ∈ s.wrapper.timeouts then
        some { s with
          wrapper := s.wrapper.deleteInflightTimeout messageId
          tasks := s.tasks ++ [.retry messageId] }
      else none
  | .runTask index => s.tasks[index]?.map (runTask { s with tasks := s.tasks.eraseIdx index })

/-! ### The condition -/

/-- The retry of a packet id does not send a QoS 2 message again: no such message is stored under
the id without its PUBREC, or it is given up now, or the endpoint is not connected. -/
def RetryOk (w : SessionWrapper kind) (messageId : ℤ) : Prop :=
  ∀ message ∈ w.inflights.get messageId, message.qos = .exactlyOnce →
    message.status = MsgConst.PUBREC_STATUS ∨
      message.retry ≥ w.config.sessionInflightMaxRetries ∨ w.endpoint.isConnected = false

instance (w : SessionWrapper kind) (messageId : ℤ) : Decidable (RetryOk w messageId) :=
  inferInstanceAs (Decidable (∀ message ∈ w.inflights.get messageId, _))

def TaskOk (s : Net kind) : Task → Prop
  | .retry messageId => RetryOk s.wrapper messageId
  | .puback _ | .pubrec _ | .pubrel _ | .pubcomp _ => True

/-- The condition on a step. -/
def StepOk (s : Net kind) : Action → Prop
  | .runTask index => ∀ task ∈ s.tasks[index]?, TaskOk s task
  | .accept | .close | .publishMessage _ _ | .publishCachedMessage | .clientReceive
  | .serverReceive | .expire _ => True

instance decidableTaskOk (s : Net kind) : ∀ task : Task, Decidable (TaskOk s task)
  | .retry _ => inferInstanceAs (Decidable (RetryOk _ _))
  | .puback _ | .pubrec _ | .pubrel _ | .pubcomp _ => inferInstanceAs (Decidable True)

instance decidableStepOk (s : Net kind) : ∀ action : Action, Decidable (StepOk s action)
  | .runTask index => inferInstanceAs (Decidable (∀ task ∈ s.tasks[index]?, TaskOk s task))
  | .accept | .close | .publishMessage _ _ | .publishCachedMessage | .clientReceive
  | .serverReceive | .expire _ => inferInstanceAs (Decidable True)

/-! ### The invariant -/

/-- The messages whose PUBLISH is on the wire. -/
def onWire (packets : List MqttPacket) : List ℕ :=
  packets.filterMap fun packet => match packet with
    | .publish _ uid _ _ _ _ _ => some uid
    | .pubrel _ => none

/-- A message that the ledger knows with this QoS. -/
def Numbered (l : Ledger) (message : MqttMessage) : Prop :=
  l.accepted[message.uid]? = some message.qos

/-- A wrapper with the queue `items` that has a client which was given the messages `delivered`:
a QoS 2 message occurs once at most in the queue, on the wire and with the client. -/
structure OneSend (w : SessionWrapper kind) (items : List MqttMessage) (delivered : List ℕ) :
    Prop where
  queued : ∀ message ∈ items, Numbered w.ledger message
  stored : ∀ messageId message, w.inflights.get messageId = some message →
    Numbered w.ledger message
  known : ∀ uid ∈ onWire w.endpoint.written ++ delivered, uid < w.ledger.accepted.length
  once : ∀ uid, w.ledger.accepted[uid]? = some .exactlyOnce →
    items.countP (fun message => message.uid = uid) + (onWire w.endpoint.written).count uid +
      delivered.count uid ≤ 1

variable {w : SessionWrapper kind} {items : List MqttMessage} {delivered : List ℕ}

/-- The queue may lose messages, and what is stored must be numbered. -/
lemma OneSend.of_subperm {w' : SessionWrapper kind} {items' : List MqttMessage}
    (h : OneSend w items delivered) (hsub : items' <+~ items)
    (hacc : w'.ledger.accepted = w.ledger.accepted)
    (hst : ∀ messageId message, w'.inflights.get messageId = some message →
      Numbered w.ledger message)
    (hwire : onWire w'.endpoint.written = onWire w.endpoint.written) :
    OneSend w' items' delivered where
  queued := by
    intro message hm
    simp only [Numbered]
    rw [hacc]
    exact h.queued message (hsub.subset hm)
  stored := by
    intro messageId message hget
    simp only [Numbered]
    rw [hacc]
    exact hst messageId message hget
  known := by
    rw [hwire, hacc]
    exact h.known
  once := by
    intro uid huid
    rw [hacc] at huid
    have honce := h.once uid huid
    have hle := hsub.countP_le (fun message : MqttMessage => decide (message.uid = uid))
    rw [hwire]
    omega

/-! ### Sending -/

lemma onWire_append (packets packets' : List MqttPacket) :
    onWire (packets ++ packets') = onWire packets ++ onWire packets' := filterMap_append

lemma onWire_publish (w : SessionWrapper kind) (message : MqttMessage) (everPublished : Bool) :
    onWire (w.publish message everPublished).2.endpoint.written =
      onWire w.endpoint.written ++ if w.endpoint.isConnected then [message.uid] else [] := by
  by_cases hc : w.endpoint.isConnected = true
  · rw [publish_of_connected w message everPublished hc, if_pos hc]
    exact onWire_append _ _
  · rw [if_neg hc, append_nil]
    simp only [publish, MqttEndpoint.publish]
    rw [if_neg hc]

/-- A PUBLISH is harmless when the queue gives up as much of every QoS 2 message as is sent. -/
lemma OneSend.publish_of_le {items' : List MqttMessage} {message : MqttMessage}
    (h : OneSend w items delivered) (hsub : items' ⊆ items)
    (hlt : message.uid < w.ledger.accepted.length)
    (hcount : ∀ uid, w.ledger.accepted[uid]? = some .exactlyOnce →
      items'.countP (fun m => m.uid = uid) + (if message.uid = uid then 1 else 0) ≤
        items.countP (fun m => m.uid = uid))
    (everPublished : Bool) : OneSend (w.publish message everPublished).2 items' delivered where
  queued := by
    rw [publish_ledger]
    exact fun m hm => h.queued m (hsub hm)
  stored := by
    rw [publish_ledger, publish_inflights]
    exact h.stored
  known := by
    rw [publish_ledger, onWire_publish]
    intro uid hmem
    -- the one packet more is that of this message
    by_cases hnew : uid = message.uid
    · rw [hnew]
      exact hlt
    · refine h.known uid ?_
      simp only [mem_append] at hmem ⊢
      rcases hmem with (hmem | hmem) | hmem
      · exact Or.inl hmem
      · split_ifs at hmem
        · exact absurd (mem_singleton.1 hmem) hnew
        · simp at hmem
      · exact Or.inr hmem
  once := by
    intro uid hq
    rw [publish_ledger] at hq
    have honce := h.once uid hq
    have hle := hcount uid hq
    rw [onWire_publish, count_append]
    have hnew : (if w.endpoint.isConnected then [message.uid] else []).count uid ≤
        if message.uid = uid then 1 else 0 := by
      split_ifs <;> simp_all
    omega

lemma Numbered.lt {l : Ledger} {message : MqttMessage} (h : Numbered l message) :
    message.uid < l.accepted.length :=
  (List.getElem?_eq_some_iff.1 h).1

/-- A message that leaves the queue may be sent. -/
lemma OneSend.publish {message message' : MqttMessage}
    (h : OneSend w (message :: items) delivered) (huid : message'.uid = message.uid)
    (everPublished : Bool) : OneSend (w.publish message' everPublished).2 items delivered := by
  refine h.publish_of_le (subset_cons_self _ _) ?_ (fun uid _ => ?_) everPublished
  · rw [huid]
    exact (h.queued message mem_cons_self).lt
  · rw [countP_cons, huid]
    simp only [decide_eq_true_eq]
    omega

/-- A message of another QoS may be sent at any time. -/
lemma OneSend.publish_other {message : MqttMessage} (h : OneSend w items delivered)
    (hnum : Numbered w.ledger message) (hq : message.qos ≠ .exactlyOnce) (everPublished : Bool) :
    OneSend (w.publish message everPublished).2 items delivered := by
  refine h.publish_of_le (Subset.refl _) hnum.lt (fun uid huid => ?_) everPublished
  have hne : message.uid ≠ uid := by
    rintro rfl
    exact hq (Option.some.inj (hnum.symm.trans huid))
  rw [if_neg hne]
  exact le_rfl

lemma OneSend.put {message : MqttMessage} (h : OneSend w items delivered) (messageId : ℤ)
    (hnum : Numbered w.ledger message) :
    OneSend (w.putInflight messageId message) items delivered := by
  refine h.of_subperm (Subperm.refl _) rfl (fun key m hget => ?_) rfl
  rcases Inflights.get_put hget with ⟨-, rfl⟩ | hget
  · exact hnum
  · exact h.stored key m hget

/-- A message that is stored and gets its timer. -/
lemma OneSend.store {message : MqttMessage} (h : OneSend w items delivered) (messageId : ℤ)
    (hnum : Numbered w.ledger message) :
    OneSend ((w.putInflight messageId message).saveInflightTimeout messageId) items delivered :=
  have hput := h.put messageId hnum
  ⟨hput.queued, hput.stored, hput.known, hput.once⟩

lemma OneSend.remove (h : OneSend w items delivered) (messageId : ℤ) :
    OneSend (w.removeInflight messageId) items delivered :=
  h.of_subperm (Subperm.refl _) rfl (fun key m hget => h.stored key m (Inflights.get_remove hget))
    rfl

lemma OneSend.publishRelease (h : OneSend w items delivered) (messageId : ℤ) :
    OneSend (w.publishRelease messageId).2 items delivered := by
  refine h.of_subperm (Subperm.refl _) (by rw [publishRelease_ledger]) (fun key m hget => ?_) ?_
  · rw [publishRelease_inflights] at hget
    exact h.stored key m hget
  · simp only [SessionWrapper.publishRelease, MqttEndpoint.publishRelease]
    by_cases hc : w.endpoint.isConnected = true
    · rw [if_pos hc]
      exact (onWire_append _ _).trans (append_nil _)
    · rw [if_neg hc]

/-! ### The queue -/

/-- What is done with a polled message: it is sent, twice if its QoS is 0. -/
lemma OneSend.sendPolled {message : MqttMessage} (h : OneSend w (message :: items) delivered) :
    OneSend (w.sendPolled message).2 items delivered := by
  have hnum := h.queued message mem_cons_self
  obtain ⟨w₀, hw₀, hcases⟩ := sendPolled_cases w message
  -- the first PUBLISH is that of a message of QoS 0, which may occur more than once
  have h₀ : OneSend w₀ (message :: items) delivered ∧ Numbered w₀.ledger message := by
    rcases hw₀ with rfl | ⟨hq, rfl⟩
    · exact ⟨h, hnum⟩
    · rw [publish_ledger]
      exact ⟨h.publish_other hnum (by rw [hq]; decide) false, hnum⟩
  have hdrop : items <+~ message :: items := (sublist_cons_self _ _).subperm
  rcases hcases with heq | ⟨messageId, heq | heq⟩
  · rw [heq]
    exact h₀.1.of_subperm hdrop rfl h₀.1.stored rfl
  all_goals
    have hnum' : Numbered w₀.ledger { message with messageId := messageId } := h₀.2
    rw [heq]
  · have hput := h₀.1.put messageId hnum'
    exact hput.of_subperm hdrop rfl hput.stored rfl
  · exact (h₀.1.store messageId hnum').publish rfl false

/-- `dequeue` moves messages from the queue to the wire, by induction on what is left. -/
theorem OneSend.dequeueFrom (h : OneSend w items delivered) :
    OneSend (w.dequeueFrom items) (w.dequeueFrom items).queue.items delivered := by
  induction items generalizing w with
  | nil => exact ⟨h.queued, h.stored, h.known, h.once⟩
  | cons message rest ih =>
      simp only [SessionWrapper.dequeueFrom]
      split_ifs
      · exact ⟨h.queued, h.stored, h.known, h.once⟩
      · have hpoll : OneSend (w.setQueue rest) (message :: rest) delivered :=
          ⟨h.queued, h.stored, h.known, h.once⟩
        have hsent := hpoll.sendPolled
        have hqueue := sendPolled_queue (w.setQueue rest) message
        cases hres : (w.setQueue rest).sendPolled message with
        | mk goes w' =>
            rw [hres] at hsent hqueue
            cases goes with
            | true => exact ih hsent
            | false =>
                have hitems : w'.queue.items = rest := congrArg BoundedQueue.items hqueue
                show OneSend w' w'.queue.items delivered
                rw [hitems]
                exact hsent

lemma OneSend.publishCachedMessage (h : OneSend w w.queue.items delivered) :
    OneSend w.publishCachedMessage w.publishCachedMessage.queue.items delivered := h.dequeueFrom

lemma OneSend.enqueue {message : MqttMessage}
    (h : OneSend w (w.queue.items ++ [message]) delivered) :
    OneSend (w.enqueue message).2 (w.enqueue message).2.queue.items delivered := by
  unfold SessionWrapper.enqueue
  dsimp only
  split_ifs
  · exact h.of_subperm (addExt_sublist w message).subperm rfl h.stored rfl
  · exact h.of_subperm (addExt_sublist w message).subperm rfl h.stored rfl
  · exact h.of_subperm (sublist_append_left _ _).subperm rfl h.stored rfl

lemma OneSend.handleMessage {message : MqttMessage}
    (h : OneSend w (w.queue.items ++ [message]) delivered) :
    OneSend (w.handleMessage message).2 (w.handleMessage message).2.queue.items delivered := by
  have hhead : OneSend w (message :: w.queue.items) delivered :=
    h.of_subperm (perm_append_singleton _ _).symm.subperm rfl h.stored rfl
  rw [SessionWrapper.handleMessage, SessionWrapper.inflight]
  dsimp only
  split_ifs
  · exact h.enqueue
  · rw [publish_queue]
    exact hhead.publish rfl false
  · exact h.enqueue
  · rw [publish_queue]
    have hnum : Numbered w.ledger { message with
      messageId := IdUtil.nextMessageId w.endpoint } := h.queued message (by simp)
    exact (hhead.store _ hnum).publish rfl false
  · exact h.enqueue

/-- A message that `publishMessage` accepts is a new one. -/
lemma OneSend.accept (h : OneSend w w.queue.items delivered) (message : MqttMessage)
    (qos : MqttQoS) :
    OneSend { w with ledger := w.ledger.accept qos }
      (w.queue.items ++ [w.copyMqttMessage message qos]) delivered := by
  have hold : ∀ m : MqttMessage, Numbered w.ledger m → Numbered (w.ledger.accept qos) m := by
    intro m hm
    simp only [Numbered, Ledger.accept]
    rw [List.getElem?_append_left hm.lt]
    exact hm
  have huid : (w.copyMqttMessage message qos).uid = w.ledger.accepted.length := rfl
  refine ⟨fun m hm => ?_, fun key m hget => hold m (h.stored key m hget), fun uid hmem => ?_,
    fun uid hq => ?_⟩
  · rcases mem_append.1 hm with hm | hm
    · exact hold m (h.queued m hm)
    · rw [mem_singleton.1 hm]
      simp only [Numbered, Ledger.accept]
      rw [huid, List.getElem?_concat_length]
      rfl
  · have hlt := h.known uid hmem
    change uid < (w.ledger.accepted ++ [qos]).length
    rw [length_append]
    omega
  · rw [countP_append, countP_singleton, huid]
    simp only [decide_eq_true_eq]
    by_cases hnew : w.ledger.accepted.length = uid
    · -- nothing is known of the new number yet
      have hnone : ∀ l : List ℕ, (∀ x ∈ l, x < w.ledger.accepted.length) → l.count uid = 0 := by
        intro l hl
        rw [count_eq_zero]
        intro hmem
        have := hl uid hmem
        omega
      have hqueue : w.queue.items.countP (fun m => decide (m.uid = uid)) = 0 := by
        rw [countP_eq_zero]
        intro m hm
        have := (h.queued m hm).lt
        simp only [decide_eq_true_eq]
        omega
      have hwire := hnone _ fun x hx => h.known x (mem_append_left _ hx)
      have hdel := hnone _ fun x hx => h.known x (mem_append_right _ hx)
      rw [if_pos hnew, hqueue, hdel]
      change 0 + 1 + (onWire w.endpoint.written).count uid + 0 ≤ 1
      omega
    · have hq' : w.ledger.accepted[uid]? = some .exactlyOnce := by
        have hlt : uid < w.ledger.accepted.length := by
          have hlt' := (List.getElem?_eq_some_iff.1 hq).1
          change uid < (w.ledger.accepted ++ [qos]).length at hlt'
          rw [length_append, length_singleton] at hlt'
          omega
        change (w.ledger.accepted ++ [qos])[uid]? = _ at hq
        rwa [List.getElem?_append_left hlt] at hq
      rw [if_neg hnew]
      exact h.once uid hq'

lemma OneSend.publishMessage (h : OneSend w w.queue.items delivered) (message : MqttMessage)
    (qos : MqttQoS) :
    OneSend (w.publishMessage message qos) (w.publishMessage message qos).queue.items
      delivered := by
  have hsent := (h.accept message qos).handleMessage
  unfold SessionWrapper.publishMessage
  dsimp only
  split_ifs
  · exact hsent.publishCachedMessage
  · exact hsent

/-! ### Acknowledgements and retries -/

lemma OneSend.receiveFinal (h : OneSend w w.queue.items delivered) (messageId : ℤ) :
    OneSend (w.receiveFinal messageId) (w.receiveFinal messageId).queue.items delivered := by
  simp only [SessionWrapper.receiveFinal]
  refine OneSend.publishCachedMessage ?_
  have hrem := h.remove messageId
  exact hrem.of_subperm (Subperm.refl _) rfl hrem.stored rfl

lemma OneSend.receivePubrec (h : OneSend w w.queue.items delivered) (messageId : ℤ) :
    OneSend (w.receivePubrec messageId) (w.receivePubrec messageId).queue.items delivered := by
  simp only [SessionWrapper.receivePubrec]
  cases hget : w.inflights.get messageId with
  | none => exact h
  | some message => exact h.put messageId (h.stored messageId message hget)

/-- A retry is harmless unless it sends a QoS 2 message again. -/
lemma OneSend.retryInflight {message : MqttMessage} (h : OneSend w items delivered)
    (hnum : Numbered w.ledger message)
    (hok : message.qos = .exactlyOnce →
      message.status = MsgConst.PUBREC_STATUS ∨ w.endpoint.isConnected = false) :
    OneSend (w.retryInflight message).2 items delivered := by
  have hkept : Numbered w.ledger { message with retry := message.retry + 1 } := hnum
  have hmoved : Numbered w.ledger { message with
    messageId := IdUtil.nextMessageId w.endpoint, retry := message.retry + 1 } := hnum
  rw [SessionWrapper.retryInflight]
  dsimp only
  split_ifs with hrel hid
  · exact (h.store _ hkept).publishRelease _
  -- a message of QoS 2 is only sent again when it waits for its PUBCOMP, or nobody is there
  · have hq : message.qos ≠ .exactlyOnce := by
      intro hq
      rcases hok hq with hst | hc
      · exact hrel ⟨hq, hst⟩
      · rw [nextMessageId_of_not_connected hc] at hid
        exact absurd hid (by decide)
    exact ((h.remove message.messageId).store _ hmoved).publish_other hmoved hq true
  · exact h.store _ hkept
  · exact h

lemma OneSend.retry (h : OneSend w w.queue.items delivered) {messageId : ℤ}
    (hok : RetryOk w messageId) :
    OneSend (w.retry messageId) (w.retry messageId).queue.items delivered := by
  simp only [SessionWrapper.retry]
  cases hget : w.inflights.get messageId with
  | none => exact h
  | some message =>
      dsimp only
      split_ifs with hmax
      · have hrem := h.remove messageId
        exact OneSend.publishCachedMessage (hrem.of_subperm (Subperm.refl _) rfl hrem.stored rfl)
      · rw [retryInflight_queue]
        refine h.retryInflight (h.stored messageId message hget) fun hq => ?_
        rcases hok message hget hq with hst | hret | hc
        · exact Or.inl hst
        · exact absurd hret hmax
        · exact Or.inr hc

/-! ### Runs -/

/-- The invariant of the two parties. -/
def Inv (s : Net kind) : Prop := OneSend s.wrapper s.wrapper.queue.items s.delivered

/-- The client takes a packet from the wire and passes its message on, or does not. -/
lemma OneSend.clientReceive {packet : MqttPacket} {rest : List MqttPacket}
    (h : OneSend w items delivered) (hw : w.endpoint.written = packet :: rest) {given : List ℕ}
    (hgiven : given <+ onWire [packet]) :
    OneSend { w with endpoint := { w.endpoint with written := rest } } items
      (delivered ++ given) where
  queued := h.queued
  stored := h.stored
  known := by
    intro uid hmem
    refine h.known uid ?_
    -- what the client is given was on the wire
    rw [hw, show packet :: rest = [packet] ++ rest from rfl, onWire_append]
    simp only [mem_append] at hmem ⊢
    rcases hmem with hmem | hmem | hmem
    · exact Or.inl (Or.inr hmem)
    · exact Or.inr hmem
    · exact Or.inl (Or.inl (hgiven.subset hmem))
  once := by
    intro uid hq
    have honce := h.once uid hq
    rw [hw, show packet :: rest = [packet] ++ rest from rfl, onWire_append, count_append] at honce
    have hle := hgiven.count_le uid
    rw [count_append]
    change items.countP _ + (onWire rest).count uid + _ ≤ 1
    omega

/-- What the client passes on is the message of the packet at most. -/
lemma clientHandle_delivered (s : Net kind) (packet : MqttPacket) :
    ∃ given, given <+ onWire [packet] ∧
      (clientHandle s packet).delivered = s.delivered ++ given ∧
      (clientHandle s packet).wrapper = s.wrapper := by
  cases packet with
  | publish messageId uid topic payload qos dup retain =>
      cases qos with
      | atMostOnce => exact ⟨[uid], Sublist.refl _, rfl, rfl⟩
      | atLeastOnce => exact ⟨[uid], Sublist.refl _, rfl, rfl⟩
      | exactlyOnce =>
          unfold clientHandle
          dsimp only
          split_ifs
          · exact ⟨[], nil_sublist _, (append_nil _).symm, rfl⟩
          · exact ⟨[uid], Sublist.refl _, rfl, rfl⟩
  | pubrel messageId => exact ⟨[], nil_sublist _, (append_nil _).symm, rfl⟩

lemma Inv.runTask {s : Net kind} (h : Inv s) {task : Task} (hok : TaskOk s task) :
    Inv (runTask s task) := by
  cases task with
  | puback messageId => exact h.receiveFinal messageId
  | pubrec messageId => exact h.receivePubrec messageId
  | pubrel messageId =>
      have hrel := OneSend.publishRelease h messageId
      simp only [Inv, Delivery.runTask]
      rw [publishRelease_queue]
      exact hrel
  | pubcomp messageId => exact h.receiveFinal messageId
  | retry messageId => exact h.retry hok

/-- What one step keeps, one case for each action. -/
lemma Inv.step {s s' : Net kind} {action : Action} (h : Inv s) (hok : StepOk s action)
    (hstep : step s action = some s') : Inv s' := by
  cases action with
  | accept =>
      obtain ⟨endpoint, hacc, rfl⟩ := Option.map_eq_some_iff.1 hstep
      obtain ⟨-, rfl⟩ := MqttEndpoint.eq_of_accept hacc
      exact ⟨h.queued, h.stored, h.known, h.once⟩
  | close =>
      obtain rfl := Option.some.inj hstep
      exact ⟨h.queued, h.stored, h.known, h.once⟩
  | publishMessage message qos =>
      obtain rfl := Option.some.inj hstep
      exact OneSend.publishMessage h message qos
  | publishCachedMessage =>
      obtain rfl := Option.some.inj hstep
      exact OneSend.publishCachedMessage h
  | clientReceive =>
      simp only [Delivery.step] at hstep
      cases hw : s.wrapper.endpoint.written with
      | nil => simp [hw] at hstep
      | cons packet rest =>
          rw [hw] at hstep
          obtain rfl := Option.some.inj hstep
          obtain ⟨given, hgiven, hdel, hwrap⟩ := clientHandle_delivered { s with
            wrapper := { s.wrapper with endpoint := { s.wrapper.endpoint with written := rest } } }
            packet
          simp only [Inv]
          rw [hdel, hwrap]
          exact OneSend.clientReceive h hw hgiven
  | serverReceive =>
      simp only [Delivery.step] at hstep
      cases hup : s.up with
      | nil => simp [hup] at hstep
      | cons packet rest =>
          rw [hup] at hstep
          obtain rfl := Option.some.inj hstep
          exact h
  | expire messageId =>
      simp only [Delivery.step] at hstep
      split_ifs at hstep
      obtain rfl := Option.some.inj hstep
      exact ⟨h.queued, h.stored, h.known, h.once⟩
  | runTask index =>
      obtain ⟨task, htask, rfl⟩ := Option.map_eq_some_iff.1 hstep
      exact Inv.runTask (s := { s with tasks := s.tasks.eraseIdx index }) h (hok task htask)

/-- The stored queue and the stored inflight messages of an earlier connection: every message is
one that the ledger numbers, and the queue holds none twice. -/
def StoredOk (queue : List MqttMessage) (inflights : BoundedIgniteMapUnsafe ℤ MqttMessage)
    (ledger : Ledger) : Prop :=
  (∀ message ∈ queue, Numbered ledger message) ∧ (queue.map MqttMessage.uid).Nodup ∧
    ∀ messageId message, inflights.get messageId = some message → Numbered ledger message

/-- A wrapper that was just opened, with an endpoint that is not accepted yet: a new transient
one, or a persistent one over what is stored. -/
inductive Opened : (kind : SessionKind) → SessionWrapper kind → Prop
  | transient (config : Config) (id : ℕ) (clientId : Str) :
      Opened .transient (TransientSessionWrapper.new config (.create id clientId true))
  | persistent (config : Config) (id : ℕ) (clientId : Str) (queue : List MqttMessage)
      (inflights : BoundedIgniteMapUnsafe ℤ MqttMessage) (ledger : Ledger)
      (hstored : StoredOk queue inflights ledger) :
      Opened .persistent (PersistentSessionWrapper.openWrapper
        (PersistentSessionWrapper.new config (.create id clientId false) queue inflights ledger))

/-- Before the CONNACK the stored messages only get their timers back. -/
lemma OneSend.retryInflights {w : SessionWrapper .persistent}
    (h : OneSend w w.queue.items delivered) (hc : w.endpoint.isConnected = false) :
    OneSend (PersistentSessionWrapper.retryInflights w)
      (PersistentSessionWrapper.retryInflights w).queue.items delivered := by
  have hinduction := @PersistentSessionWrapper.retryInflights_induction
    (fun w => OneSend w w.queue.items delivered ∧ w.endpoint.isConnected = false)
  refine (hinduction (fun w key message hw hget => ?_) ⟨h, hc⟩).1
  have hret := hw.1.retryInflight (hw.1.stored key message hget) fun _ => Or.inr hw.2
  rw [← retryInflight_queue w message] at hret
  exact ⟨hret, by rw [retryInflight_endpoint w hw.2, hw.2]⟩

lemma Opened.oneSend (h : Opened kind w) : OneSend w w.queue.items [] := by
  cases h with
  | transient config id clientId =>
      refine ⟨fun m hm => ?_, fun key m hget => ?_, fun uid hmem => ?_, fun uid hq => ?_⟩
      · exact absurd hm not_mem_nil
      · have hnone : (∅ : PlainMap ℤ MqttMessage).get key = some m := hget
        exact absurd hnone (by simp)
      · exact absurd hmem not_mem_nil
      · exact Nat.zero_le 1
  | persistent config id clientId queue inflights ledger hstored =>
      obtain ⟨hqueue, hnodup, hinf⟩ := hstored
      refine OneSend.publishCachedMessage (OneSend.retryInflights ?_ rfl)
      have hsub := openQueue_sublist config.sessionQueueMaxCapacity queue
      refine ⟨fun m hm => hqueue m (hsub.subset hm), hinf, fun uid hmem => ?_, fun uid _ => ?_⟩
      · exact absurd hmem not_mem_nil
      · have hle := nodup_iff_count_le_one.1 (hnodup.sublist (hsub.map MqttMessage.uid)) uid
        rw [count, countP_map] at hle
        exact hle

/-- The two parties when nothing has been sent. -/
def start (w : SessionWrapper kind) : Net kind := ⟨w, [], [], [], []⟩

/-- **Exactly once, as long as no retry sends a QoS 2 message again.**  For every wrapper of
either kind, every client and every order of the steps: in a run whose steps meet `StepOk`, in
every state on the way, a QoS 2 message was passed on to the application of the client at most
once. -/
theorem delivered_once_run (w : SessionWrapper kind) (hopen : Opened kind w)
    (actions : List Action) (hok : AllSteps step StepOk (start w) actions)
    (before after : List Action) (hsplit : actions = before ++ after) (s : Net kind)
    (hs : run step (start w) before = some s) (uid : ℕ)
    (hq : s.wrapper.ledger.accepted[uid]? = some .exactlyOnce) : s.delivered.count uid ≤ 1 := by
  subst hsplit
  have hinv : Inv s := invariant_run (fun u a u' _ hu hstep hrun => hu.step hstep hrun)
    (show Inv (start w) from hopen.oneSend) hok.of_append hs
  have honce := hinv.once uid hq
  omega

/-- The session of the runs below. -/
def sampleWrapper : SessionWrapper .transient :=
  TransientSessionWrapper.new sampleConfig (.create 0 "c".toList true)

/-- The whole handshake of a message. -/
def handshake : List Action :=
  [.accept, .publishMessage sampleMessage .exactlyOnce, .clientReceive,
    .serverReceive, .runTask 0, .runTask 0, .clientReceive, .serverReceive, .runTask 0]

theorem delivered_once_handshake :
    ((run step (start sampleWrapper) handshake).get (by decide)).delivered.count 0 ≤ 1 :=
  delivered_once_run sampleWrapper (.transient _ _ _) handshake (by decide) handshake []
    (by simp) _ (Option.some_get _).symm 0 (by decide)

/-- The timer runs out while the PUBREC is on its way: the message is sent again under the next
packet id, which the client does not remember. -/
theorem not_delivered_once :
    ¬∀ (kind : SessionKind) (w : SessionWrapper kind), Opened kind w →
      ∀ (actions : List Action) (s : Net kind), run step (start w) actions = some s →
        ∀ uid : ℕ, s.wrapper.ledger.accepted[uid]? = some .exactlyOnce →
          s.delivered.count uid ≤ 1 := by
  intro h
  have hrun : (run step (start sampleWrapper)
      [.accept, .publishMessage sampleMessage .exactlyOnce,
        .clientReceive, .expire 1, .runTask 0, .clientReceive]).map
      (fun s => (s.wrapper.ledger.accepted, s.delivered)) = some ([.exactlyOnce], [0, 0]) := by
    decide
  obtain ⟨s, hs, heq⟩ := Option.map_eq_some_iff.1 hrun
  have honce := h .transient sampleWrapper (.transient _ _ _) _ s hs 0
    (by rw [(Prod.mk.inj heq).1]; rfl)
  rw [(Prod.mk.inj heq).2] at honce
  exact absurd honce (by decide)

end Delivery

end Stuart
