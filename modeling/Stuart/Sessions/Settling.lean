/-
A session and its client come to rest.

Nothing that is sent asks for something without end: a PUBLISH of QoS 2 is followed by four packets
at most and by their tasks, a timer by one retry, and the retries of a message are counted.  So a
session with what is on its way has a measure (`Net.work`) that each packet, each timer and each
task makes smaller, whatever the order.

At rest no packet is on its way and no timer runs, and so nothing is inflight, as every inflight
message has its timer (`Timers.Timed`).  The queue is empty then as well: whoever takes the last
message out of the window looks into the queue (`Awake`).  And every message of QoS 1 or 2 that the
session has accepted was passed on by the client, or is in the ledger as given up.
-/
import Stuart.Lib.Rest
import Stuart.Sessions.ExactlyOnce
import Stuart.Sessions.FirstSending
import Stuart.Sessions.Timers

namespace Stuart

open List Lib

namespace Inflights

variable {kind : SessionKind} {m : Inflights kind} {key : ℤ} {value old : MqttMessage}

/-- The stored messages. -/
def messages : {kind : SessionKind} → Inflights kind → List MqttMessage
  | .transient, m => PlainMap.values m
  | .persistent, m => PlainMap.values (BoundedIgniteMapUnsafe.cache m)

/-- A sum over the stored messages. -/
def sum (f : MqttMessage → ℕ) (m : Inflights kind) : ℕ := (m.messages.map f).sum

lemma perm_of_get (h : m.get key = some old) : m.messages ~ old :: (m.remove key).messages := by
  cases kind with
  | transient => exact PlainMap.values_perm_of_get h
  | persistent => exact PlainMap.values_perm_of_get (m := BoundedIgniteMapUnsafe.cache m) h

lemma messages_remove_of_get_none (h : m.get key = none) :
    (m.remove key).messages = m.messages := by
  cases kind with
  | transient => exact congrArg PlainMap.values (PlainMap.remove_of_get_none h)
  | persistent =>
      exact congrArg PlainMap.values
        (PlainMap.remove_of_get_none (m := BoundedIgniteMapUnsafe.cache m) h)

/-- A message is stored in the place of the one under its key, or not at all. -/
lemma messages_put (m : Inflights kind) (key : ℤ) (value : MqttMessage) :
    (m.put key value).messages = value :: (m.remove key).messages ∨
      m.get key = none ∧ m.put key value = m := by
  cases kind with
  | transient => exact Or.inl (PlainMap.values_put m key value)
  | persistent =>
      by_cases hacc : BoundedIgniteMapUnsafe.accepts m key
      · refine Or.inl ?_
        have hput := BoundedIgniteMapUnsafe.put_of_accepts m hacc value
        exact (congrArg (fun m' => PlainMap.values (BoundedIgniteMapUnsafe.cache m')) hput).trans
          (PlainMap.values_put (BoundedIgniteMapUnsafe.cache m) key value)
      · refine Or.inr ⟨?_, BoundedIgniteMapUnsafe.put_of_not_accepts m hacc value⟩
        by_contra hne
        exact hacc (Or.inl hne)

variable (f : MqttMessage → ℕ)

lemma sum_remove_of_get (h : m.get key = some old) : (m.remove key).sum f + f old = m.sum f := by
  have hsum := ((perm_of_get h).map f).sum_nat
  rw [map_cons, sum_cons] at hsum
  simp only [sum]
  omega

lemma sum_remove_le (m : Inflights kind) (key : ℤ) : (m.remove key).sum f ≤ m.sum f := by
  cases hget : m.get key with
  | none => rw [sum, messages_remove_of_get_none hget, sum]
  | some old =>
      have hsum := sum_remove_of_get f hget
      omega

lemma sum_put_le (m : Inflights kind) (key : ℤ) (value : MqttMessage) :
    (m.put key value).sum f ≤ m.sum f + f value := by
  rcases messages_put m key value with heq | ⟨-, heq⟩
  · have hremove := sum_remove_le f m key
    rw [sum, heq, map_cons, sum_cons]
    simp only [sum] at hremove ⊢
    omega
  · rw [heq]
    omega

/-- A message that is replaced. -/
lemma sum_put_of_get (h : m.get key = some old) (value : MqttMessage) :
    (m.put key value).sum f + f old = m.sum f + f value := by
  rcases messages_put m key value with heq | ⟨hnone, -⟩
  · have hremove := sum_remove_of_get f h
    rw [sum, heq, map_cons, sum_cons]
    simp only [sum] at hremove ⊢
    omega
  · rw [hnone] at h
    cases h

/-- Something is inflight; in a bounded map another message can take its place. -/
def Busy : {kind : SessionKind} → Inflights kind → Prop
  | .transient, m => ∃ key, PlainMap.get m key ≠ none
  | .persistent, m => 0 < BoundedIgniteMapUnsafe.capacity m ∧
      ∃ key, BoundedIgniteMapUnsafe.get m key ≠ none

lemma Busy.exists_get (h : m.Busy) : ∃ key, m.get key ≠ none := by
  cases kind with
  | transient => exact h
  | persistent => exact h.2

lemma busy_of_isFull {config : Config} (h : m.isFull config = true) : m.Busy := by
  cases kind with
  | transient =>
      obtain ⟨hpos, hfull⟩ := of_decide_eq_true h
      obtain ⟨message, hmem⟩ := exists_mem_of_length_pos (l := PlainMap.values m) (by omega)
      obtain ⟨key, hget⟩ := (PlainMap.mem_values_iff m message).1 hmem
      exact ⟨key, by simp [hget]⟩
  | persistent =>
      obtain ⟨hpos, hfull⟩ := of_decide_eq_true h
      obtain ⟨key, hmem⟩ := exists_mem_of_length_pos (l := BoundedIgniteMapUnsafe.set m) (by omega)
      exact ⟨hpos, key, (BoundedIgniteMapUnsafe.mem_set m key).1 hmem⟩

/-- A message that is put in the place of another one. -/
lemma Busy.replace (h : m.Busy) (old key : ℤ) (value : MqttMessage) :
    ((m.remove old).put key value).Busy := by
  cases kind with
  | transient =>
      refine ⟨key, ?_⟩
      show PlainMap.get (PlainMap.put (PlainMap.remove m old) key value) key ≠ none
      simp
  | persistent =>
      obtain ⟨m', hm'⟩ : ∃ m', m' = BoundedIgniteMapUnsafe.remove m old := ⟨_, rfl⟩
      have hcap : 0 < m'.capacity := by
        rw [hm']
        exact h.1
      show @Busy .persistent (BoundedIgniteMapUnsafe.put (BoundedIgniteMapUnsafe.remove m old) key
        value).2
      rw [← hm']
      by_cases hacc : m'.accepts key
      · rw [m'.put_of_accepts hacc]
        exact ⟨hcap, key, by simp⟩
      · -- a set that is too large keeps other messages
        rw [m'.put_of_not_accepts hacc]
        have hfull : ¬(m'.set.length : ℤ) < m'.capacity := fun hlt => hacc (Or.inr ⟨hcap, hlt⟩)
        obtain ⟨key', hmem⟩ := exists_mem_of_length_pos (l := m'.set) (by omega)
        exact ⟨hcap, key', (m'.mem_set key').1 hmem⟩

/-- A message that is put back in its place. -/
lemma Busy.put (h : m.Busy) (hget : m.get key ≠ none) (value : MqttMessage) :
    (m.put key value).Busy := by
  have hself : (m.put key value).get key ≠ none := by
    rw [get_put_of_get hget, if_pos rfl]
    simp
  cases kind with
  | transient => exact ⟨key, hself⟩
  | persistent =>
      refine ⟨?_, key, hself⟩
      show 0 < (BoundedIgniteMapUnsafe.put m key value).2.capacity
      rw [BoundedIgniteMapUnsafe.put_of_accepts m (Or.inl hget)]
      exact h.1

end Inflights

namespace Delivery

open SessionWrapper

variable {kind : SessionKind}

/-! ### What is still to be done -/

/-- How often a message may be sent again. -/
def retriesLeft (config : Config) (message : MqttMessage) : ℕ :=
  (config.sessionInflightMaxRetries - message.retry).toNat

/-- The steps that follow a PUBLISH: it is received, and so is each answer, which starts a task. -/
def publishWork : MqttQoS → ℕ
  | .atMostOnce => 1
  | .atLeastOnce => 3
  | .exactlyOnce => 7

def packetWork : MqttPacket → ℕ
  | .publish _ _ _ _ qos _ _ => publishWork qos
  | .pubrel _ => 3

def ClientPacket.work : ClientPacket → ℕ
  | .puback _ => 2
  | .pubrec _ => 6
  | .pubcomp _ => 2

def Task.work : Task → ℕ
  | .puback _ => 1
  | .pubrec _ => 5
  | .pubrel _ => 4
  | .pubcomp _ => 1
  | .retry _ => 1

/-- The steps that a wrapper with the queue `items` and its packets stand for: a retry needs the
packets of a PUBLISH and a timer with its task. -/
def work (w : SessionWrapper kind) (items : List MqttMessage) : ℕ :=
  (w.endpoint.written.map packetWork).sum + 2 * w.timeouts.length +
    w.inflights.sum (fun message => 10 * retriesLeft w.config message) +
    (items.map fun message => 9 + 10 * retriesLeft w.config message).sum

/-- The steps until the two parties are at rest. -/
def Net.work (s : Net kind) : ℕ :=
  Delivery.work s.wrapper s.wrapper.queue.items + (s.up.map ClientPacket.work).sum +
    (s.tasks.map Task.work).sum

variable {w w' : SessionWrapper kind} {items : List MqttMessage} {message : MqttMessage}
  {messageId : ℤ}

lemma publishWork_le (qos : MqttQoS) : publishWork qos ≤ 7 := by
  cases qos <;> decide

lemma work_publish (w : SessionWrapper kind) (items : List MqttMessage) (message : MqttMessage)
    (everPublished : Bool) : work (w.publish message everPublished).2 items ≤
      work w items + publishWork message.qos := by
  cases hc : w.endpoint.isConnected with
  | true =>
      rw [publish_of_connected w message everPublished hc]
      simp only [work, map_append, map_cons, map_nil, sum_append, sum_cons, sum_nil, packetWork]
      omega
  | false =>
      rw [publish_of_not_connected w message everPublished hc]
      exact Nat.le_add_right _ _

lemma work_publishRelease (w : SessionWrapper kind) (items : List MqttMessage) (messageId : ℤ) :
    work (w.publishRelease messageId).2 items ≤ work w items + 3 := by
  cases hc : w.endpoint.isConnected with
  | true =>
      rw [publishRelease_of_connected w messageId hc]
      simp only [work, map_append, map_cons, map_nil, sum_append, sum_cons, sum_nil, packetWork]
      omega
  | false =>
      rw [publishRelease_of_not_connected w messageId hc]
      exact Nat.le_add_right _ _

lemma work_saveInflightTimeout (w : SessionWrapper kind) (items : List MqttMessage)
    (messageId : ℤ) : work (w.saveInflightTimeout messageId) items ≤ work w items + 2 := by
  have hlength : (w.timeouts.insert messageId).length ≤ w.timeouts.length + 1 := by
    rw [length_insert]
    split_ifs <;> omega
  simp only [work, saveInflightTimeout]
  omega

lemma work_deleteInflightTimeout (w : SessionWrapper kind) (items : List MqttMessage)
    (messageId : ℤ) : work (w.deleteInflightTimeout messageId) items ≤ work w items := by
  have hlength := length_filter_le (fun key => decide (key ≠ messageId)) w.timeouts
  simp only [work, deleteInflightTimeout]
  omega

/-- A timer that has run out. -/
lemma work_expire (items : List MqttMessage) (h : messageId ∈ w.timeouts) :
    work (w.deleteInflightTimeout messageId) items + 2 ≤ work w items := by
  have hlength : (w.timeouts.filter (· ≠ messageId)).length < w.timeouts.length :=
    length_filter_lt_length_iff_exists.2 ⟨messageId, h, by simp⟩
  simp only [work, deleteInflightTimeout]
  omega

lemma work_removeInflight (w : SessionWrapper kind) (items : List MqttMessage) (messageId : ℤ) :
    work (w.removeInflight messageId) items ≤ work w items := by
  have hsum := Inflights.sum_remove_le (fun message => 10 * retriesLeft w.config message)
    w.inflights messageId
  simp only [work, removeInflight]
  omega

lemma work_putInflight (w : SessionWrapper kind) (items : List MqttMessage) (messageId : ℤ)
    (message : MqttMessage) : work (w.putInflight messageId message) items ≤
      work w items + 10 * retriesLeft w.config message := by
  have hsum := Inflights.sum_put_le (fun message => 10 * retriesLeft w.config message)
    w.inflights messageId message
  simp only [work, putInflight]
  omega

/-! ### The methods -/

/-- A message that waits and is sent, with its timer and its retries. -/
lemma work_sendPolled (w : SessionWrapper kind) (items : List MqttMessage)
    (message : MqttMessage) :
    work (w.sendPolled message).2 items ≤ work w (message :: items) := by
  have hcons : work w (message :: items) =
      work w items + (9 + 10 * retriesLeft w.config message) := by
    simp only [work, map_cons, sum_cons]
    omega
  obtain ⟨w₀, hw₀, hcases⟩ := sendPolled_cases w message
  -- a message of QoS 0 is sent twice
  have h₀ : w₀.config = w.config ∧ work w₀ items + publishWork message.qos ≤ work w items + 7 := by
    rcases hw₀ with rfl | ⟨hq, rfl⟩
    · exact ⟨rfl, Nat.add_le_add_left (publishWork_le _) _⟩
    · have hsent := work_publish w items message false
      rw [hq] at hsent ⊢
      simp only [publishWork] at hsent ⊢
      exact ⟨(kept_publish w message false).config, by omega⟩
  obtain ⟨hconfig, hle⟩ := h₀
  have hput (messageId : ℤ) := work_putInflight w₀ items messageId
    { message with messageId := messageId }
  simp only [retriesLeft, hconfig] at hput hcons
  rcases hcases with heq | ⟨messageId, heq | heq⟩
  · rw [heq, hcons]
    omega
  · rw [heq, hcons]
    have hstored := hput messageId
    omega
  · rw [heq, hcons]
    have hstored := hput messageId
    have htimer := work_saveInflightTimeout
      (w₀.putInflight messageId { message with messageId := messageId }) items messageId
    have hsent := work_publish ((w₀.putInflight messageId
      { message with messageId := messageId }).saveInflightTimeout messageId) items
      { message with messageId := messageId } false
    dsimp only at hsent
    omega

/-- The loop of `dequeue`, by induction on what is left of the queue. -/
lemma work_dequeueFrom (w : SessionWrapper kind) (items : List MqttMessage) :
    work (w.dequeueFrom items) (w.dequeueFrom items).queue.items ≤ work w items := by
  induction items generalizing w with
  | nil => exact Nat.le_refl _
  | cons message rest ih =>
      simp only [SessionWrapper.dequeueFrom]
      split_ifs
      · exact Nat.le_refl _
      · have hsent := work_sendPolled (w.setQueue rest) rest message
        have hqueue := sendPolled_queue (w.setQueue rest) message
        cases hres : (w.setQueue rest).sendPolled message with
        | mk goesOn w' =>
            rw [hres] at hsent hqueue
            cases goesOn with
            | true => exact (ih w').trans hsent
            | false =>
                have hitems : w'.queue.items = rest := congrArg BoundedQueue.items hqueue
                show work w' w'.queue.items ≤ _
                rw [hitems]
                exact hsent

lemma work_publishCachedMessage (w : SessionWrapper kind) :
    work w.publishCachedMessage w.publishCachedMessage.queue.items ≤ work w w.queue.items :=
  work_dequeueFrom w w.queue.items

lemma work_receiveFinal (w : SessionWrapper kind) (messageId : ℤ) :
    work (w.receiveFinal messageId) (w.receiveFinal messageId).queue.items ≤
      work w w.queue.items := by
  set w₀ := { w with ledger := w.ledger.acknowledge (w.inflights.get messageId) }
  have hremove := work_removeInflight w₀ w.queue.items messageId
  have htimer := work_deleteInflightTimeout (w₀.removeInflight messageId) w.queue.items messageId
  exact (work_publishCachedMessage _).trans (htimer.trans hremove)

lemma work_receivePubrec (w : SessionWrapper kind) (messageId : ℤ) :
    work (w.receivePubrec messageId) (w.receivePubrec messageId).queue.items ≤
      work w w.queue.items := by
  simp only [SessionWrapper.receivePubrec]
  cases hget : w.inflights.get messageId with
  | none => exact Nat.le_refl _
  | some message =>
      have hsum := Inflights.sum_put_of_get (fun message => 10 * retriesLeft w.config message) hget
        { message with status := MsgConst.PUBREC_STATUS }
      simp only [retriesLeft] at hsum
      simp only [work, putInflight, retriesLeft]
      omega

/-- A message that is sent again has one retry less. -/
lemma work_retryInflight (hget : w.inflights.get message.messageId = some message)
    (hlast : ¬message.retry ≥ w.config.sessionInflightMaxRetries) (items : List MqttMessage) :
    work (w.retryInflight message).2 items ≤ work w items := by
  have hless : ∀ id, retriesLeft w.config { message with
      messageId := id, retry := message.retry + 1 } + 1 = retriesLeft w.config message := by
    intro id
    simp only [retriesLeft]
    omega
  have hkeep := Inflights.sum_put_of_get (fun message => 10 * retriesLeft w.config message) hget
    { message with retry := message.retry + 1 }
  have hkeepless := hless message.messageId
  -- the message is put back in its place, with a timer
  have hstay : work ((w.putInflight message.messageId { message with
      retry := message.retry + 1 }).saveInflightTimeout message.messageId) items + 8 ≤
        work w items := by
    have htimer := work_saveInflightTimeout (w.putInflight message.messageId { message with
      retry := message.retry + 1 }) items message.messageId
    simp only [work, putInflight] at htimer ⊢
    omega
  rw [SessionWrapper.retryInflight]
  dsimp only
  split_ifs
  · have hrelease := work_publishRelease ((w.putInflight message.messageId { message with
      retry := message.retry + 1 }).saveInflightTimeout message.messageId) items message.messageId
    omega
  · set id := IdUtil.nextMessageId w.endpoint
    have hid := hless id
    have hgone := Inflights.sum_remove_of_get (fun message => 10 * retriesLeft w.config message)
      hget
    have hput := work_putInflight (w.removeInflight message.messageId) items id
      { message with messageId := id, retry := message.retry + 1 }
    have htimer := work_saveInflightTimeout ((w.removeInflight message.messageId).putInflight id
      { message with messageId := id, retry := message.retry + 1 }) items id
    have hsent := work_publish (((w.removeInflight message.messageId).putInflight id
      { message with messageId := id, retry := message.retry + 1 }).saveInflightTimeout id) items
      { message with messageId := id, retry := message.retry + 1 } true
    have hseven := publishWork_le message.qos
    have hremoved : work (w.removeInflight message.messageId) items +
        10 * retriesLeft w.config message = work w items := by
      simp only [work, removeInflight]
      omega
    simp only [removeInflight] at hput hsent hremoved htimer ⊢
    omega
  · exact (Nat.le_add_right _ 8).trans hstay
  · exact Nat.le_refl _

lemma work_retry (hkeyed : w.inflights.Keyed) (messageId : ℤ) :
    work (w.retry messageId) (w.retry messageId).queue.items ≤ work w w.queue.items := by
  simp only [SessionWrapper.retry]
  cases hget : w.inflights.get messageId with
  | none => exact Nat.le_refl _
  | some message =>
      dsimp only
      split_ifs with hlast
      · exact (work_publishCachedMessage _).trans
          (work_removeInflight { w with ledger := w.ledger.discard [message] 1 } w.queue.items
            messageId)
      · rw [retryInflight_queue]
        obtain rfl := hkeyed messageId message hget
        exact work_retryInflight hget hlast w.queue.items

/-! ### The two parties -/

/-- What goes on when nothing new comes from outside. -/
def Action.IsWork : Action → Prop
  | .clientReceive | .serverReceive | .expire _ | .runTask _ => True
  | .accept | .close | .publishMessage _ _ | .publishCachedMessage => False

/-- The client answers a packet with one that stands for less. -/
lemma work_clientHandle (s : Net kind) (packet : MqttPacket) :
    (clientHandle s packet).work + 1 ≤ s.work + packetWork packet := by
  cases packet with
  | publish messageId uid topic payload qos dup retain =>
      cases qos with
      | atMostOnce => exact Nat.le_refl _
      | atLeastOnce =>
          simp only [clientHandle, Net.work, packetWork, publishWork, map_append, map_cons, map_nil,
            sum_append, sum_cons, sum_nil, ClientPacket.work]
          omega
      | exactlyOnce =>
          simp only [clientHandle]
          split_ifs <;>
            simp only [Net.work, packetWork, publishWork, map_append, map_cons, map_nil,
              sum_append, sum_cons, sum_nil, ClientPacket.work] <;> omega
  | pubrel messageId =>
      simp only [clientHandle, Net.work, packetWork, map_append, map_cons, map_nil, sum_append,
        sum_cons, sum_nil, ClientPacket.work]
      omega

lemma work_runTask {s : Net kind} (hkeyed : s.wrapper.inflights.Keyed) (task : Task) :
    (runTask s task).work + 1 ≤ s.work + task.work := by
  cases task with
  | puback messageId =>
      have hwork := work_receiveFinal s.wrapper messageId
      simp only [runTask, Net.work, Task.work, SessionWrapper.receivePuback]
      omega
  | pubrec messageId =>
      have hwork := work_receivePubrec s.wrapper messageId
      simp only [runTask, Net.work, Task.work, map_append, map_cons, map_nil, sum_append, sum_cons,
        sum_nil]
      omega
  | pubrel messageId =>
      have hwork := work_publishRelease s.wrapper s.wrapper.queue.items messageId
      simp only [runTask, Net.work, Task.work, publishRelease_queue]
      omega
  | pubcomp messageId =>
      have hwork := work_receiveFinal s.wrapper messageId
      simp only [runTask, Net.work, Task.work, SessionWrapper.receivePubcomp]
      omega
  | retry messageId =>
      have hwork := work_retry hkeyed messageId
      simp only [runTask, Net.work, Task.work]
      omega

/-- Each packet, each timer and each task takes a step away. -/
lemma work_step {s s' : Net kind} {action : Action} (hkeyed : s.wrapper.inflights.Keyed)
    (hwork : action.IsWork) (hstep : step s action = some s') : s'.work < s.work := by
  cases action with
  | accept => exact hwork.elim
  | close => exact hwork.elim
  | publishMessage message qos => exact hwork.elim
  | publishCachedMessage => exact hwork.elim
  | clientReceive =>
      simp only [step] at hstep
      cases hw : s.wrapper.endpoint.written with
      | nil => simp [hw] at hstep
      | cons packet rest =>
          rw [hw] at hstep
          obtain rfl := Option.some.inj hstep
          have hanswer := work_clientHandle { s with
            wrapper := { s.wrapper with endpoint := { s.wrapper.endpoint with written := rest } } }
            packet
          have hwritten : s.work = Net.work { s with wrapper := { s.wrapper with
              endpoint := { s.wrapper.endpoint with written := rest } } } + packetWork packet := by
            simp only [Net.work, Delivery.work, hw, map_cons, sum_cons]
            omega
          exact hanswer.trans hwritten.ge
  | serverReceive =>
      simp only [step] at hstep
      cases hup : s.up with
      | nil => simp [hup] at hstep
      | cons packet rest =>
          rw [hup] at hstep
          obtain rfl := Option.some.inj hstep
          have htask : packet.task.work + 1 = packet.work := by cases packet <;> rfl
          simp only [Net.work, hup, map_append, map_cons, map_nil, sum_append, sum_cons, sum_nil]
          omega
  | expire messageId =>
      simp only [step] at hstep
      split_ifs at hstep with hmem
      obtain rfl := Option.some.inj hstep
      have htimer := work_expire s.wrapper.queue.items hmem
      simp only [Net.work, map_append, map_cons, map_nil, sum_append, sum_cons, sum_nil, Task.work]
      simp only [deleteInflightTimeout] at htimer ⊢
      omega
  | runTask index =>
      obtain ⟨task, htask, rfl⟩ := Option.map_eq_some_iff.1 hstep
      obtain ⟨hlt, hget⟩ := List.getElem?_eq_some_iff.1 htask
      have hperm := ((getElem_cons_eraseIdx_perm hlt).map Task.work).sum_nat
      rw [hget, map_cons, sum_cons] at hperm
      have hrun := work_runTask (s := { s with tasks := s.tasks.eraseIdx index }) hkeyed task
      simp only [Net.work] at hrun ⊢
      omega

/-! ### Nobody sleeps -/

/-- What waits is taken out of the queue when what is inflight is acknowledged or given up. -/
def Awake (w : SessionWrapper kind) : Prop := w.queue.items = [] ∨ w.inflights.Busy

lemma awake_of_isInflightFull (h : w.isInflightFull = true) : Awake w :=
  Or.inr (Inflights.busy_of_isFull h)

/-- `dequeue` stops when the queue is empty or the window is full. -/
lemma awake_dequeueFrom (hc : w.endpoint.isConnected = true) (hr : w.endpoint.InRange)
    (items : List MqttMessage) : Awake (w.dequeueFrom items) := by
  induction items generalizing w with
  | nil => exact Or.inl rfl
  | cons message rest ih =>
      simp only [SessionWrapper.dequeueFrom]
      by_cases hfull : w.isInflightFull = true
      · rw [if_pos (by simp [hfull])]
        exact awake_of_isInflightFull (w := w.setQueue (message :: rest)) hfull
      · rw [if_neg (by simp [hc, hfull])]
        have hkept := kept_sendPolled (w.setQueue rest) message
        have hgoes := sendPolled_fst (w.setQueue rest) hc hr message
        cases hsend : (w.setQueue rest).sendPolled message with
        | mk goesOn w' =>
            rw [hsend] at hkept hgoes
            obtain rfl : goesOn = true := hgoes
            exact ih (hkept.isConnected.trans hc) (hkept.inRange hr)

lemma awake_publishCachedMessage (hc : w.endpoint.isConnected = true)
    (hr : w.endpoint.InRange) : Awake w.publishCachedMessage :=
  awake_dequeueFrom hc hr w.queue.items

lemma enqueue_inflights (w : SessionWrapper kind) (message : MqttMessage) :
    (w.enqueue message).2.inflights = w.inflights := by
  simp only [SessionWrapper.enqueue]
  split_ifs <;> rfl

lemma awake_publishMessage (h : Awake w) (hc : w.endpoint.isConnected = true)
    (hr : w.endpoint.InRange) (hb : w.queue.Bounded) (message : MqttMessage) (qos : MqttQoS) :
    Awake (w.publishMessage message qos) := by
  set w₀ := { w with ledger := w.ledger.accept qos }
  set copy := w.copyMqttMessage message qos
  have hkept := kept_handleMessage w₀ copy
  rcases FirstSending.handleMessage_spec (w := w₀) hb hr copy with
    ⟨hres, -, -⟩ | ⟨hres, hqueue, -, hempty⟩
  · have hflush : w.publishMessage message qos =
        (w₀.handleMessage copy).2.publishCachedMessage := if_pos hres
    rw [hflush]
    exact awake_publishCachedMessage (hkept.isConnected.trans hc) (hkept.inRange hr)
  · have hdirect : w.publishMessage message qos = (w₀.handleMessage copy).2 := if_neg hres
    rw [hdirect]
    by_cases hq : copy.qos = .atMostOnce
    · -- nothing happens to the queue and the inflight messages
      have hinflights : (w₀.handleMessage copy).2.inflights = w.inflights := by
        simp only [SessionWrapper.handleMessage]
        rw [if_pos hq]
        split_ifs
        · exact enqueue_inflights w₀ copy
        · exact publish_inflights w₀ copy false
      rw [Awake, hqueue, hinflights]
      exact h
    · refine Or.inl ?_
      rw [hqueue]
      exact hempty hq

lemma awake_receivePubrec (h : Awake w) (messageId : ℤ) : Awake (w.receivePubrec messageId) := by
  simp only [SessionWrapper.receivePubrec]
  cases hget : w.inflights.get messageId with
  | none => exact h
  | some message => exact h.imp_right fun hbusy => hbusy.put (by simp [hget]) _

/-- A retry that gives its message up looks into the queue, any other one keeps the message. -/
lemma awake_retry (h : Awake w) (hc : w.endpoint.isConnected = true) (hr : w.endpoint.InRange)
    (hkeyed : w.inflights.Keyed) (messageId : ℤ) : Awake (w.retry messageId) := by
  simp only [SessionWrapper.retry]
  cases hget : w.inflights.get messageId with
  | none => exact h
  | some message =>
      dsimp only
      split_ifs
      · exact awake_publishCachedMessage hc hr
      · obtain rfl := hkeyed messageId message hget
        rw [Awake, retryInflight_queue]
        refine h.imp_right fun hbusy => ?_
        rw [SessionWrapper.retryInflight]
        dsimp only
        split_ifs
        · rw [publishRelease_inflights]
          exact hbusy.put (by simp [hget]) _
        · rw [publish_inflights]
          exact hbusy.replace _ _ _
        · exact hbusy.put (by simp [hget]) _
        · exact hbusy

/-! ### Before the CONNACK -/

lemma publishMessage_inflights_of_not_connected (hc : w.endpoint.isConnected = false)
    (message : MqttMessage) (qos : MqttQoS) :
    (w.publishMessage message qos).inflights = w.inflights := by
  set w₀ := { w with ledger := w.ledger.accept qos }
  set copy := w.copyMqttMessage message qos
  have hhandle : (w₀.handleMessage copy).2.inflights = w.inflights := by
    simp only [SessionWrapper.handleMessage]
    split_ifs
    · exact enqueue_inflights w₀ copy
    · exact publish_inflights w₀ copy false
    · rw [inflight_of_wait (w := w₀) (Or.inr (Or.inr hc))]
      exact enqueue_inflights w₀ copy
  have hflush : (w₀.handleMessage copy).2.publishCachedMessage = (w₀.handleMessage copy).2 :=
    dequeue_of_not_connected _ ((kept_handleMessage w₀ copy).isConnected.trans hc)
  unfold SessionWrapper.publishMessage
  dsimp only
  rw [hflush]
  split_ifs <;> exact hhandle

lemma receiveFinal_inflights_of_not_connected (hc : w.endpoint.isConnected = false)
    (messageId : ℤ) : (w.receiveFinal messageId).inflights = w.inflights.remove messageId := by
  have hflush := dequeue_of_not_connected
    (({ w with ledger := w.ledger.acknowledge (w.inflights.get messageId) }.removeInflight
      messageId).deleteInflightTimeout messageId) hc
  exact congrArg SessionWrapper.inflights hflush

/-! ### The invariant -/

/-- What keeps a session going; the events are the retries that are waiting. -/
structure Live (w : SessionWrapper kind) (events : ℤ → Prop) : Prop where
  bounded : w.queue.Bounded
  inRange : w.endpoint.InRange
  keyed : w.inflights.Keyed
  isOpen : w.endpoint.isConnected = true → w.endpoint.isClosed = false
  timed : w.endpoint.isClosed = false → Timers.Timed events w
  /-- a transient session sends nothing before the CONNACK -/
  idle : kind = .transient → w.endpoint.isConnected = false → w.endpoint.isClosed = false →
    ∀ key, w.inflights.get key = none
  awake : w.endpoint.isConnected = true → Awake w

variable {events events' : ℤ → Prop}

lemma Live.of_kept (h : Live w events) (hkept : Kept w w')
    (htimed : w.endpoint.isClosed = false → Timers.Timed events' w')
    (hidle : w.endpoint.isConnected = false → (∀ key, w.inflights.get key = none) →
      ∀ key, w'.inflights.get key = none)
    (hawake : w.endpoint.isConnected = true → Awake w') : Live w' events' := by
  have hclosed : w'.endpoint.isClosed = w.endpoint.isClosed :=
    congrArg (fun link => link.2.2.2.2) hkept.link
  refine ⟨(hkept.queue h.bounded).1, hkept.inRange h.inRange, hkept.keyed h.keyed, ?_, ?_, ?_, ?_⟩
  · rw [hkept.isConnected, hclosed]
    exact h.isOpen
  · rw [hclosed]
    exact htimed
  · rw [hkept.isConnected, hclosed]
    exact fun hkind hc hopen => hidle hc (h.idle hkind hc hopen)
  · rw [hkept.isConnected]
    exact hawake

lemma Live.publishCachedMessage (h : Live w events) : Live w.publishCachedMessage events := by
  refine h.of_kept (kept_publishCachedMessage w)
    (fun hopen => (h.timed hopen).publishCachedMessage h.inRange) (fun hc hnone => ?_)
    fun hc => awake_publishCachedMessage hc h.inRange
  rw [SessionWrapper.publishCachedMessage, dequeue_of_not_connected w hc]
  exact hnone

lemma Live.publishMessage (h : Live w events) (message : MqttMessage) (qos : MqttQoS) :
    Live (w.publishMessage message qos) events := by
  refine h.of_kept (kept_publishMessage w message qos)
    (fun hopen => (h.timed hopen).publishMessage h.inRange message qos) (fun hc hnone => ?_)
    fun hc => awake_publishMessage (h.awake hc) hc h.inRange h.bounded message qos
  rw [publishMessage_inflights_of_not_connected hc]
  exact hnone

lemma Live.receiveFinal (h : Live w events) (messageId : ℤ) :
    Live (w.receiveFinal messageId) events := by
  refine h.of_kept (kept_receiveFinal w messageId)
    (fun hopen => (h.timed hopen).receiveFinal h.inRange messageId) (fun hc hnone key => ?_)
    fun hc => awake_publishCachedMessage hc h.inRange
  rw [receiveFinal_inflights_of_not_connected hc]
  by_contra hne
  exact (Timers.get_of_remove hne).2 (hnone key)

lemma Live.receivePubrec (h : Live w events) (messageId : ℤ) :
    Live (w.receivePubrec messageId) events := by
  refine h.of_kept (kept_receivePubrec w messageId)
    (fun hopen => (h.timed hopen).receivePubrec messageId) (fun _ hnone => ?_)
    fun hc => awake_receivePubrec (h.awake hc) messageId
  simp only [SessionWrapper.receivePubrec, hnone messageId]
  exact hnone

lemma Live.publishRelease (h : Live w events) (messageId : ℤ) :
    Live (w.publishRelease messageId).2 events := by
  refine h.of_kept (kept_publishRelease w messageId)
    (fun hopen => (h.timed hopen).publishRelease messageId) (fun _ hnone => ?_) fun hc => ?_
  · rw [publishRelease_inflights]
    exact hnone
  · rw [Awake, publishRelease_queue, publishRelease_inflights]
    exact h.awake hc

/-- A retry, whose event is not there any more. -/
lemma Live.retry (h : Live w (fun key => key = messageId ∨ events key)) :
    Live (w.retry messageId) events := by
  refine h.of_kept (kept_retry w messageId) (fun hopen => ?_) (fun _ hnone => ?_)
    fun hc => awake_retry (h.awake hc) hc h.inRange h.keyed messageId
  · by_cases hidle : kind = .transient ∧ w.endpoint.isConnected = false
    · -- nothing is inflight yet
      have hnone := h.idle hidle.1 hidle.2 hopen
      simp only [SessionWrapper.retry, hnone messageId]
      exact fun key hkey => absurd (hnone key) hkey
    · refine (h.timed hopen).retry h.inRange h.keyed fun hkind => ?_
      by_contra hc
      exact hidle ⟨hkind, Bool.eq_false_iff.2 hc⟩
  · simp only [SessionWrapper.retry, hnone messageId]
    exact hnone

lemma Live.mono (h : Live w events) (himp : ∀ key, events key → events' key) : Live w events' :=
  ⟨h.bounded, h.inRange, h.keyed, h.isOpen, fun hopen => (h.timed hopen).mono himp, h.idle, h.awake⟩

/-- A retry of the packet id is waiting. -/
def Net.retries (s : Net kind) (messageId : ℤ) : Prop := .retry messageId ∈ s.tasks

lemma Live.runTask {s : Net kind} {task : Task}
    (h : Live s.wrapper (fun key => .retry key = task ∨ s.retries key)) :
    Live (runTask s task).wrapper (runTask s task).retries := by
  cases task with
  | puback messageId =>
      refine (h.mono fun key hevent => hevent.resolve_left ?_).receiveFinal messageId
      exact fun heq => by cases heq
  | pubrec messageId =>
      refine (h.mono fun key hevent => ?_).receivePubrec messageId
      exact mem_append_left _ (hevent.resolve_left fun heq => by cases heq)
  | pubrel messageId =>
      refine (h.mono fun key hevent => hevent.resolve_left ?_).publishRelease messageId
      exact fun heq => by cases heq
  | pubcomp messageId =>
      refine (h.mono fun key hevent => hevent.resolve_left ?_).receiveFinal messageId
      exact fun heq => by cases heq
  | retry messageId =>
      refine Live.retry (h.mono fun key hevent => hevent.imp_left fun heq => ?_)
      cases heq
      rfl

/-- At the CONNACK nothing waits, or the window is full. -/
def AcceptOk (s : Net kind) : Action → Prop
  | .accept => s.wrapper.queue.items = [] ∨ s.wrapper.isInflightFull = true
  | .close | .publishMessage _ _ | .publishCachedMessage | .clientReceive | .serverReceive
  | .expire _ | .runTask _ => True

instance decidableAcceptOk (s : Net kind) : ∀ action : Action, Decidable (AcceptOk s action)
  | .accept => inferInstanceAs (Decidable (_ ∨ _))
  | .close | .publishMessage _ _ | .publishCachedMessage | .clientReceive | .serverReceive
  | .expire _ | .runTask _ => inferInstanceAs (Decidable True)

lemma clientHandle_rest (s : Net kind) (packet : MqttPacket) :
    (clientHandle s packet).wrapper = s.wrapper ∧ (clientHandle s packet).tasks = s.tasks := by
  cases packet with
  | publish messageId uid topic payload qos dup retain =>
      cases qos with
      | atMostOnce => exact ⟨rfl, rfl⟩
      | atLeastOnce => exact ⟨rfl, rfl⟩
      | exactlyOnce =>
          simp only [clientHandle]
          split_ifs <;> exact ⟨rfl, rfl⟩
  | pubrel messageId => exact ⟨rfl, rfl⟩

/-- One step, by cases on what happens. -/
lemma Live.step {s s' : Net kind} {action : Action} (h : Live s.wrapper s.retries)
    (hok : AcceptOk s action) (hstep : step s action = some s') : Live s'.wrapper s'.retries := by
  cases action with
  | accept =>
      obtain ⟨endpoint, hacc, rfl⟩ := Option.map_eq_some_iff.1 hstep
      obtain ⟨hopen, rfl⟩ := MqttEndpoint.eq_of_accept hacc
      refine ⟨h.bounded, h.inRange, h.keyed, fun _ => hopen, h.timed, ?_, fun _ => ?_⟩
      · exact fun _ hc => by cases hc
      · rcases hok with hempty | hfull
        · exact Or.inl hempty
        · exact awake_of_isInflightFull (w := { s.wrapper with
            endpoint := { s.wrapper.endpoint with isConnected := true } }) hfull
  | close =>
      obtain rfl := Option.some.inj hstep
      refine ⟨h.bounded, h.inRange, h.keyed, ?_, ?_, ?_, ?_⟩
      · exact fun hc => by cases hc
      · exact fun hopen => by cases hopen
      · exact fun _ _ hopen => by cases hopen
      · exact fun hc => by cases hc
  | publishMessage message qos =>
      obtain rfl := Option.some.inj hstep
      exact h.publishMessage message qos
  | publishCachedMessage =>
      obtain rfl := Option.some.inj hstep
      exact h.publishCachedMessage
  | clientReceive =>
      simp only [Delivery.step] at hstep
      cases hw : s.wrapper.endpoint.written with
      | nil => simp [hw] at hstep
      | cons packet rest =>
          rw [hw] at hstep
          obtain rfl := Option.some.inj hstep
          obtain ⟨hwrapper, htasks⟩ := clientHandle_rest { s with wrapper := { s.wrapper with
            endpoint := { s.wrapper.endpoint with written := rest } } } packet
          rw [hwrapper]
          refine ⟨h.bounded, h.inRange, h.keyed, h.isOpen, fun hopen => ?_, h.idle, h.awake⟩
          refine Timers.Timed.mono (h.timed hopen) fun key hevent => ?_
          rw [Net.retries, htasks]
          exact hevent
  | serverReceive =>
      simp only [Delivery.step] at hstep
      cases hup : s.up with
      | nil => simp [hup] at hstep
      | cons packet rest =>
          rw [hup] at hstep
          obtain rfl := Option.some.inj hstep
          exact h.mono fun key hevent => mem_append_left _ hevent
  | expire messageId =>
      simp only [Delivery.step] at hstep
      split_ifs at hstep
      obtain rfl := Option.some.inj hstep
      refine ⟨h.bounded, h.inRange, h.keyed, h.isOpen, fun hopen => ?_, h.idle, h.awake⟩
      refine (h.timed hopen).expire.mono fun key hevent => ?_
      rcases hevent with hevent | rfl
      · exact mem_append_left _ hevent
      · exact mem_append_right _ (mem_singleton_self _)
  | runTask index =>
      obtain ⟨task, htask, rfl⟩ := Option.map_eq_some_iff.1 hstep
      obtain ⟨hlt, hget⟩ := List.getElem?_eq_some_iff.1 htask
      refine Live.runTask (s := { s with tasks := s.tasks.eraseIdx index })
        (h.mono fun key hevent => ?_)
      have hmem := (getElem_cons_eraseIdx_perm hlt).mem_iff.2 hevent
      rw [hget] at hmem
      exact mem_cons.1 hmem

/-! ### Runs -/

/-- A wrapper that was just opened, with an endpoint that is not accepted yet: a new transient one,
or a persistent one over what is stored. -/
inductive Begins : (kind : SessionKind) → SessionWrapper kind → Prop
  | transient (config : Config) (id : ℕ) (clientId : Str) :
      Begins .transient (TransientSessionWrapper.new config (.create id clientId true))
  | persistent (config : Config) (id : ℕ) (clientId : Str) (queue : List MqttMessage)
      (inflights : BoundedIgniteMapUnsafe ℤ MqttMessage) (ledger : Ledger)
      (hkeyed : @Inflights.Keyed .persistent inflights) :
      Begins .persistent (PersistentSessionWrapper.openWrapper
        (PersistentSessionWrapper.new config (.create id clientId false) queue inflights ledger))

lemma Begins.live (h : Begins kind w) : Live w (fun _ => False) := by
  cases h with
  | transient config id clientId =>
      have hnone : ∀ key, (∅ : PlainMap ℤ MqttMessage).get key = none := PlainMap.get_empty
      refine ⟨fun hpos => ?_, MqttEndpoint.inRange_create _ _ _, fun key message hget => ?_, ?_,
        fun _ key hkey => absurd (hnone key) hkey, fun _ _ _ => hnone, fun _ => Or.inl rfl⟩
      · exact Int.le_of_lt (show 0 < config.sessionQueueMaxCapacity from hpos)
      · cases (hnone key).symm.trans hget
      · exact fun hc => by cases hc
  | persistent config id clientId queue inflights ledger hkeyed =>
      have hkept := PersistentSessionWrapper.kept_openWrapper
        (PersistentSessionWrapper.new config (.create id clientId false) queue inflights ledger)
      have hr := MqttEndpoint.inRange_create id clientId false
      have hc := hkept.isConnected
      refine ⟨(hkept.queue (openQueue_bounded _ _)).1, hkept.inRange hr, hkept.keyed hkeyed, ?_,
        fun _ => Timers.timed_openWrapper hr hkeyed, ?_, ?_⟩
      · rw [hc]
        exact fun hc => by cases hc
      · exact fun hkind => by cases hkind
      · rw [hc]
        exact fun hc => by cases hc

lemma live_run {actions : List Action} {s : Net kind} (hw : Begins kind w)
    (hok : AllSteps step AcceptOk (start w) actions) (hrun : run step (start w) actions = some s) :
    Live s.wrapper s.retries :=
  invariant_run (I := fun s : Net kind => Live s.wrapper s.retries)
    (fun _ _ _ _ h hok hstep => h.step hok hstep) (hw.live.mono fun _ => False.elim) hok hrun

/-- The work that is left is finite, whatever the order. -/
lemma decreases_work : Decreases step Action.IsWork
    (fun s : Net kind => Live s.wrapper s.retries) Net.work := by
  intro s action s' h hwork hstep
  refine ⟨h.step ?_ hstep, work_step h.keyed hwork hstep⟩
  cases action with
  | accept => exact hwork.elim
  | close | publishMessage _ _ | publishCachedMessage | clientReceive | serverReceive | expire _
  | runTask _ => trivial

/-- At rest nothing is on its way, and no timer runs. -/
lemma atRest_iff {s : Net kind} : AtRest step Action.IsWork s ↔
    s.wrapper.endpoint.written = [] ∧ s.up = [] ∧ s.tasks = [] ∧ s.wrapper.timeouts = [] := by
  constructor
  · intro h
    have hreceive := h .clientReceive trivial
    have hanswer := h .serverReceive trivial
    have htask := h (.runTask 0) trivial
    simp only [step] at hreceive hanswer
    simp only [step, Option.map_eq_none_iff, getElem?_eq_none_iff, Nat.le_zero,
      length_eq_zero_iff] at htask
    refine ⟨?_, ?_, htask, eq_nil_iff_forall_not_mem.2 fun messageId hmem => ?_⟩
    · cases hw : s.wrapper.endpoint.written with
      | nil => rfl
      | cons packet rest => simp [hw] at hreceive
    · cases hup : s.up with
      | nil => rfl
      | cons packet rest => simp [hup] at hanswer
    · have hexpire := h (.expire messageId) trivial
      simp [step, hmem] at hexpire
  · rintro ⟨hwritten, hup, htasks, htimeouts⟩ action hwork
    cases action with
    | accept => exact hwork.elim
    | close => exact hwork.elim
    | publishMessage message qos => exact hwork.elim
    | publishCachedMessage => exact hwork.elim
    | clientReceive => simp [step, hwritten]
    | serverReceive => simp [step, hup]
    | expire messageId => simp [step, htimeouts]
    | runTask index => simp [step, htasks]

/-- **A session comes to rest.**  From every state that a session and its client reach, the packets,
the timers and the tasks come to an end, in whatever order they come; and when a connected session
is at rest, nothing waits in its queue and nothing is inflight. -/
theorem comes_to_rest (hw : Begins kind w) (actions : List Action)
    (hok : AllSteps step AcceptOk (start w) actions) (s : Net kind)
    (hrun : run step (start w) actions = some s) :
    (∀ more s', (∀ action ∈ more, Action.IsWork action) → run step s more = some s' →
      more.length + s'.work ≤ s.work) ∧
    (∃ more s', (∀ action ∈ more, Action.IsWork action) ∧ run step s more = some s' ∧
      AtRest step Action.IsWork s') ∧
    (AtRest step Action.IsWork s → s.wrapper.endpoint.isConnected = true →
      s.wrapper.queue.items = [] ∧ ∀ messageId, s.wrapper.inflights.get messageId = none) := by
  have h := live_run hw hok hrun
  refine ⟨fun more s' hwork hmore => decreases_work.length_run_le h hwork hmore,
    decreases_work.exists_atRest h, fun hrest hc => ?_⟩
  obtain ⟨-, -, htasks, htimeouts⟩ := atRest_iff.1 hrest
  have hnone : ∀ messageId, s.wrapper.inflights.get messageId = none := by
    intro messageId
    by_contra hne
    rcases h.timed (h.isOpen hc) messageId hne with htimer | hevent
    · rw [htimeouts] at htimer
      cases htimer
    · rw [Net.retries, htasks] at hevent
      cases hevent
  refine ⟨?_, hnone⟩
  rcases h.awake hc with hempty | hbusy
  · exact hempty
  · obtain ⟨messageId, hne⟩ := hbusy.exists_get
    exact absurd (hnone messageId) hne

/-- The window takes one message, and the second one waits until the first is acknowledged; the
timer of the first one runs out meanwhile. -/
def sampleActions : List Action :=
  [.accept, .publishMessage sampleMessage .exactlyOnce, .publishMessage sampleMessage .atLeastOnce,
    .clientReceive, .serverReceive, .runTask 0, .expire 1, .runTask 1, .runTask 0, .clientReceive,
    .clientReceive, .serverReceive, .serverReceive, .runTask 0, .runTask 0, .clientReceive,
    .serverReceive, .runTask 0]

/-- A new session with room for one message in its window. -/
def narrowWrapper : SessionWrapper .transient :=
  TransientSessionWrapper.new { sampleConfig with sessionInflightMaxCapacity := 1 }
    (.create 0 "c".toList true)

def sampleRest : Net .transient := (run step (start narrowWrapper) sampleActions).get (by decide)

theorem comes_to_rest_sample : sampleRest.delivered = [0, 1] ∧
    sampleRest.wrapper.queue.items = [] ∧
      ∀ messageId, sampleRest.wrapper.inflights.get messageId = none :=
  ⟨by decide, (comes_to_rest (.transient _ _ _) sampleActions (by decide) sampleRest
    (Option.some_get _).symm).2.2 (atRest_iff.2 (by decide)) (by decide)⟩

/-! ### Every message arrives -/

open FirstSending

/-- A message of QoS 1 or 2 waits, is on the wire, was passed on, or is known to be lost. -/
def Reached (w : SessionWrapper kind) (delivered : List ℕ) (uid : ℕ) : Prop :=
  uid ∈ waiting w.queue.items ∨ uid ∈ transmitted w.endpoint.written ∨
    uid ∈ w.ledger.discarded ∨ uid ∈ delivered

/-- From `w` to `w'` no message gets lost unseen. -/
structure Passes (w w' : SessionWrapper kind) : Prop where
  waits : ∀ uid ∈ waiting w.queue.items, uid ∈ waiting w'.queue.items ∨
    uid ∈ transmitted w'.endpoint.written ∨ uid ∈ w'.ledger.discarded
  written : w.endpoint.written <+: w'.endpoint.written
  discarded : w.ledger.discarded ⊆ w'.ledger.discarded
  accepted : w'.ledger.accepted = w.ledger.accepted

variable {w'' : SessionWrapper kind} {delivered delivered' : List ℕ} {uid : ℕ}

lemma transmitted_append (packets packets' : List MqttPacket) :
    transmitted (packets ++ packets') = transmitted packets ++ transmitted packets' :=
  filterMap_append

lemma transmitted_subset {packets packets' : List MqttPacket} (h : packets <+: packets') :
    transmitted packets ⊆ transmitted packets' := by
  obtain ⟨more, rfl⟩ := h
  rw [transmitted_append]
  exact subset_append_left _ _

lemma Passes.reached (h : Passes w w') (hreached : Reached w delivered uid) :
    Reached w' delivered uid := by
  rcases hreached with hwaits | hwire | hlost | hdone
  · rcases h.waits uid hwaits with hmem | hmem | hmem
    · exact Or.inl hmem
    · exact Or.inr (Or.inl hmem)
    · exact Or.inr (Or.inr (Or.inl hmem))
  · exact Or.inr (Or.inl (transmitted_subset h.written hwire))
  · exact Or.inr (Or.inr (Or.inl (h.discarded hlost)))
  · exact Or.inr (Or.inr (Or.inr hdone))

lemma Passes.trans (h : Passes w w') (h' : Passes w' w'') : Passes w w'' where
  waits := by
    intro uid hmem
    have hreached : Reached w'' [] uid := h'.reached (h.reached (Or.inl hmem))
    simpa [Reached] using hreached
  written := h.written.trans h'.written
  discarded := fun uid hmem => h'.discarded (h.discarded hmem)
  accepted := h'.accepted.trans h.accepted

/-- Nothing happens to the queue. -/
lemma Passes.of_queue (hqueue : w'.queue = w.queue)
    (hwritten : w.endpoint.written <+: w'.endpoint.written)
    (hdiscarded : w.ledger.discarded ⊆ w'.ledger.discarded)
    (haccepted : w'.ledger.accepted = w.ledger.accepted) : Passes w w' :=
  ⟨fun uid hmem => Or.inl (by rwa [hqueue]), hwritten, hdiscarded, haccepted⟩

lemma prefix_publish (w : SessionWrapper kind) (message : MqttMessage) (everPublished : Bool) :
    w.endpoint.written <+: (w.publish message everPublished).2.endpoint.written := by
  cases hc : w.endpoint.isConnected with
  | true =>
      rw [publish_of_connected w message everPublished hc]
      exact prefix_append _ _
  | false =>
      rw [publish_of_not_connected w message everPublished hc]

lemma prefix_publishRelease (w : SessionWrapper kind) (messageId : ℤ) :
    w.endpoint.written <+: (w.publishRelease messageId).2.endpoint.written := by
  cases hc : w.endpoint.isConnected with
  | true =>
      rw [publishRelease_of_connected w messageId hc]
      exact prefix_append _ _
  | false =>
      rw [publishRelease_of_not_connected w messageId hc]

lemma passes_publish (w : SessionWrapper kind) (message : MqttMessage) (everPublished : Bool) :
    Passes w (w.publish message everPublished).2 := by
  refine .of_queue (publish_queue _ _ _) (prefix_publish _ _ _) ?_ ?_
  · rw [publish_ledger]
    exact Subset.refl _
  · rw [publish_ledger]

lemma passes_publishRelease (w : SessionWrapper kind) (messageId : ℤ) :
    Passes w (w.publishRelease messageId).2 := by
  refine .of_queue (publishRelease_queue _ _) (prefix_publishRelease _ _) ?_ ?_
  · rw [publishRelease_ledger]
    exact Subset.refl _
  · rw [publishRelease_ledger]

@[simp] lemma sendPolled_ledger (w : SessionWrapper kind) (message : MqttMessage) :
    (w.sendPolled message).2.ledger = w.ledger := by
  obtain ⟨w₀, hw₀, hcases⟩ := sendPolled_cases w message
  have hledger : w₀.ledger = w.ledger := by
    rcases hw₀ with rfl | ⟨-, rfl⟩
    · rfl
    · exact publish_ledger _ _ _
  rcases hcases with h | ⟨messageId, h | h⟩
  · rw [h, hledger]
  · rw [h]
    exact hledger
  · rw [h, publish_ledger]
    exact hledger

lemma dequeueFrom_ledger (w : SessionWrapper kind) (items : List MqttMessage) :
    (w.dequeueFrom items).ledger = w.ledger := by
  induction items generalizing w with
  | nil => rfl
  | cons message rest ih =>
      simp only [SessionWrapper.dequeueFrom]
      split_ifs
      · rfl
      · have hledger := sendPolled_ledger (w.setQueue rest) message
        cases hsend : (w.setQueue rest).sendPolled message with
        | mk goesOn w' =>
            rw [hsend] at hledger
            cases goesOn with
            | true => exact (ih w').trans hledger
            | false => exact hledger

/-- What `dequeue` takes out of the queue is on the wire. -/
lemma passes_publishCachedMessage (hr : w.endpoint.InRange) :
    Passes w w.publishCachedMessage := by
  obtain ⟨taken, hitems, hsends⟩ := sends_dequeue hr
  obtain ⟨packets, hwritten, htransmitted⟩ := hsends.written
  refine ⟨fun uid hmem => ?_, ?_, ?_, hsends.accepted⟩
  · rw [hitems, waiting_append] at hmem
    rcases mem_append.1 hmem with htaken | hrest
    · refine Or.inr (Or.inl ?_)
      show uid ∈ transmitted w.dequeue.endpoint.written
      rw [hwritten, transmitted_append, htransmitted]
      exact mem_append_right _ htaken
    · exact Or.inl hrest
  · exact ⟨packets, hwritten.symm⟩
  · rw [SessionWrapper.publishCachedMessage, SessionWrapper.dequeue, dequeueFrom_ledger]
    exact Subset.refl _

/-- What goes out of a full queue is in the ledger. -/
lemma enqueue_discarded (hb : w.queue.Bounded) (message : MqttMessage) :
    (w.enqueue message).2.ledger.discarded =
      w.ledger.discarded ++ w.queue.evicted.map MqttMessage.uid := by
  have hadd : w.addExt message = (if w.queue.isFull then 1 else 0, w.queue.append message) := by
    cases kind with
    | transient => exact BoundedQueue.addExt_concurrent hb message
    | persistent => exact BoundedQueue.addExt_ignite hb message
  have hnonneg : (if w.queue.isFull then 1 else 0 : ℤ) ≥ 0 := by split_ifs <;> omega
  have hout : w.queue.items.take (w.queue.items.length + 1 -
      (w.queue.append message).items.length) = w.queue.evicted := by
    have hlength := congrArg length (w.queue.evicted_append_items message)
    simp only [length_append, length_singleton] at hlength
    rw [show w.queue.items.length + 1 - (w.queue.append message).items.length =
      w.queue.evicted.length by omega]
    conv_lhs => rw [← w.queue.evicted_append]
    exact take_left
  simp only [SessionWrapper.enqueue, hadd, if_pos hnonneg, Ledger.discard, hout]

lemma passes_enqueue (hb : w.queue.Bounded) (message : MqttMessage) :
    Passes w (w.enqueue message).2 ∧ (message.qos ≠ .atMostOnce →
      Reached (w.enqueue message).2 delivered message.uid) := by
  obtain ⟨-, hqueue, hsends⟩ := enqueue_spec hb message
  have hout := enqueue_discarded hb message
  have hitems := w.queue.evicted_append_items message
  refine ⟨⟨fun uid hmem => ?_, ?_, ?_, hsends.accepted⟩, fun hq => Or.inl ?_⟩
  · have hall : uid ∈ waiting (w.queue.evicted ++ (w.queue.append message).items) := by
      rw [hitems, waiting_append]
      exact mem_append_left _ hmem
    rw [waiting_append] at hall
    rcases mem_append.1 hall with hgone | hkept
    · obtain ⟨m, hm, -, rfl⟩ := mem_waiting.1 hgone
      refine Or.inr (Or.inr ?_)
      rw [hout]
      exact mem_append_right _ (mem_map_of_mem hm)
    · exact Or.inl (by rwa [hqueue])
  · obtain ⟨packets, hwritten, -⟩ := hsends.written
    exact ⟨packets, hwritten.symm⟩
  · rw [hout]
    exact subset_append_left _ _
  · rw [hqueue]
    refine mem_waiting.2 ⟨message, ?_, hq, rfl⟩
    rw [BoundedQueue.append]
    exact mem_append_right _ (mem_singleton_self _)

/-- A message that is stored and sent. -/
lemma passes_sent (hc : w.endpoint.isConnected = true) (message : MqttMessage) :
    Passes w (w.sent message) ∧ (message.qos ≠ .atMostOnce →
      Reached (w.sent message) delivered message.uid) := by
  have hsends := sends_sent hc message
  obtain ⟨packets, hwritten, htransmitted⟩ := hsends.written
  refine ⟨.of_queue (sent_queue message) ⟨packets, hwritten.symm⟩ ?_ hsends.accepted,
    fun hq => Or.inr (Or.inl ?_)⟩
  · rw [sent_ledger]
    exact Subset.refl _
  · rw [hwritten, transmitted_append, htransmitted]
    exact mem_append_right _ (mem_waiting.2 ⟨message, mem_singleton_self _, hq, rfl⟩)

lemma passes_handleMessage (hb : w.queue.Bounded) (hr : w.endpoint.InRange)
    (message : MqttMessage) :
    Passes w (w.handleMessage message).2 ∧ (message.qos ≠ .atMostOnce →
      Reached (w.handleMessage message).2 delivered message.uid) := by
  simp only [SessionWrapper.handleMessage]
  split_ifs with hq hstore
  · exact passes_enqueue hb message
  · exact ⟨passes_publish w message false, fun hne => absurd hq hne⟩
  · by_cases hwait : w.queue.items ≠ [] ∨ w.isInflightFull = true ∨ w.endpoint.isConnected = false
    · rw [inflight_of_wait hwait]
      exact passes_enqueue hb message
    · simp only [ne_eq, not_or, not_not, Bool.not_eq_true, Bool.not_eq_false] at hwait
      obtain ⟨hempty, hfull, hc⟩ := hwait
      rw [inflight_of_room hempty hfull hc hr hq]
      exact passes_sent hc message

/-- An accepted message waits or is sent. -/
lemma passes_publishMessage (hb : w.queue.Bounded) (hr : w.endpoint.InRange)
    (message : MqttMessage) (qos : MqttQoS) :
    Passes { w with ledger := w.ledger.accept qos } (w.publishMessage message qos) ∧
      (qos ≠ .atMostOnce →
        Reached (w.publishMessage message qos) delivered w.ledger.accepted.length) := by
  set w₀ := { w with ledger := w.ledger.accept qos }
  set copy := w.copyMqttMessage message qos
  obtain ⟨hpasses, hnew⟩ : Passes w₀ (w₀.handleMessage copy).2 ∧ (copy.qos ≠ .atMostOnce →
      Reached (w₀.handleMessage copy).2 delivered copy.uid) :=
    passes_handleMessage (w := w₀) hb hr copy
  have hflush : Passes (w₀.handleMessage copy).2 (w.publishMessage message qos) := by
    unfold SessionWrapper.publishMessage
    dsimp only
    split_ifs
    · exact passes_publishCachedMessage ((kept_handleMessage w₀ copy).inRange hr)
    · exact .of_queue rfl prefix_rfl (Subset.refl _) rfl
  exact ⟨hpasses.trans hflush, fun hq => hflush.reached (hnew hq)⟩

lemma passes_receiveFinal (hr : w.endpoint.InRange) (messageId : ℤ) :
    Passes w (w.receiveFinal messageId) := by
  have hdone : Passes w (({ w with
      ledger := w.ledger.acknowledge (w.inflights.get messageId) }.removeInflight
        messageId).deleteInflightTimeout messageId) :=
    .of_queue rfl prefix_rfl (Subset.refl _) rfl
  exact hdone.trans (passes_publishCachedMessage hr)

lemma passes_receivePubrec (w : SessionWrapper kind) (messageId : ℤ) :
    Passes w (w.receivePubrec messageId) := by
  simp only [SessionWrapper.receivePubrec]
  split <;> exact .of_queue rfl prefix_rfl (Subset.refl _) rfl

lemma passes_retryInflight (w : SessionWrapper kind) (message : MqttMessage) :
    Passes w (w.retryInflight message).2 := by
  rw [SessionWrapper.retryInflight]
  dsimp only
  split_ifs
  · refine Passes.trans ?_ (passes_publishRelease _ _)
    exact .of_queue rfl prefix_rfl (Subset.refl _) rfl
  · refine Passes.trans ?_ (passes_publish _ _ _)
    exact .of_queue rfl prefix_rfl (Subset.refl _) rfl
  · exact .of_queue rfl prefix_rfl (Subset.refl _) rfl
  · exact .of_queue rfl prefix_rfl (Subset.refl _) rfl

lemma passes_retry (hr : w.endpoint.InRange) (messageId : ℤ) : Passes w (w.retry messageId) := by
  simp only [SessionWrapper.retry]
  cases hget : w.inflights.get messageId with
  | none => exact .of_queue rfl prefix_rfl (Subset.refl _) rfl
  | some message =>
      dsimp only
      split_ifs
      · have hgiven : Passes w ({ w with ledger := w.ledger.discard [message] 1 }.removeInflight
            messageId) :=
          .of_queue rfl prefix_rfl (subset_append_left _ _) rfl
        exact hgiven.trans (passes_publishCachedMessage hr)
      · exact passes_retryInflight w message

lemma passes_runTask {s : Net kind} (hr : s.wrapper.endpoint.InRange) (task : Task) :
    Passes s.wrapper (runTask s task).wrapper ∧ (runTask s task).delivered = s.delivered := by
  cases task with
  | puback messageId => exact ⟨passes_receiveFinal hr messageId, rfl⟩
  | pubrec messageId => exact ⟨passes_receivePubrec s.wrapper messageId, rfl⟩
  | pubrel messageId => exact ⟨passes_publishRelease s.wrapper messageId, rfl⟩
  | pubcomp messageId => exact ⟨passes_receiveFinal hr messageId, rfl⟩
  | retry messageId => exact ⟨passes_retry hr messageId, rfl⟩

/-- A message of QoS 2 under a packet id that the client remembers is one that it has passed on. -/
def Net.Recognises (s : Net kind) : MqttPacket → Prop
  | .publish messageId uid _ _ qos _ _ =>
      qos = .exactlyOnce → messageId ∈ s.remembered → uid ∈ s.delivered
  | .pubrel _ => True

/-- The client does not take a new message for one that it has. -/
def ReceiveOk (s : Net kind) : Action → Prop
  | .clientReceive => ∀ packet ∈ s.wrapper.endpoint.written.head?, s.Recognises packet
  | .accept | .close | .publishMessage _ _ | .publishCachedMessage | .serverReceive | .expire _
  | .runTask _ => True

instance decidableRecognises (s : Net kind) : ∀ packet, Decidable (s.Recognises packet)
  | .publish _ _ _ _ _ _ _ => inferInstanceAs (Decidable (_ → _ → _))
  | .pubrel _ => inferInstanceAs (Decidable True)

instance decidableReceiveOk (s : Net kind) : ∀ action : Action, Decidable (ReceiveOk s action)
  | .clientReceive =>
      inferInstanceAs (Decidable (∀ packet ∈ s.wrapper.endpoint.written.head?, _))
  | .accept | .close | .publishMessage _ _ | .publishCachedMessage | .serverReceive | .expire _
  | .runTask _ => inferInstanceAs (Decidable True)

/-- The client passes on what it has not passed on before. -/
lemma delivered_clientHandle {s : Net kind} {packet : MqttPacket} (hok : s.Recognises packet) :
    s.delivered ⊆ (clientHandle s packet).delivered ∧
      transmitted [packet] ⊆ (clientHandle s packet).delivered := by
  cases packet with
  | publish messageId uid topic payload qos dup retain =>
      cases qos with
      | atMostOnce => exact ⟨subset_append_left _ _, nil_subset _⟩
      | atLeastOnce => exact ⟨subset_append_left _ _, subset_append_right _ _⟩
      | exactlyOnce =>
          simp only [clientHandle]
          split_ifs with hmem
          · refine ⟨Subset.refl _, fun uid' huid => ?_⟩
            obtain rfl := mem_singleton.1 huid
            exact hok rfl hmem
          · exact ⟨subset_append_left _ _, subset_append_right _ _⟩
  | pubrel messageId => exact ⟨Subset.refl _, nil_subset _⟩

/-- The message was in the queue of the wrapper `w` that was opened, or was accepted since. -/
def Due (w w' : SessionWrapper kind) (uid : ℕ) : Prop :=
  uid ∈ waiting w.queue.items ∨ w.ledger.accepted.length ≤ uid ∧ Accepted w' uid

/-- What holds on the way: no message that is due has got lost. -/
structure Carried (w : SessionWrapper kind) (s : Net kind) : Prop where
  live : Live s.wrapper s.retries
  reached : ∀ uid, Due w s.wrapper uid → Reached s.wrapper s.delivered uid

lemma Due.of_passes {w₀ : SessionWrapper kind} (h : Passes w w') (hdue : Due w₀ w' uid) :
    Due w₀ w uid := by
  refine hdue.imp_right fun hsince => ⟨hsince.1, ?_⟩
  simpa only [Accepted, h.accepted] using hsince.2

lemma Carried.step {s s' : Net kind} {action : Action} (h : Carried w s)
    (hok : AcceptOk s action ∧ ReceiveOk s action) (hstep : step s action = some s') :
    Carried w s' := by
  refine ⟨h.live.step hok.1 hstep, fun uid hdue => ?_⟩
  have hr := h.live.inRange
  cases action with
  | accept =>
      obtain ⟨endpoint, hacc, rfl⟩ := Option.map_eq_some_iff.1 hstep
      obtain ⟨-, rfl⟩ := MqttEndpoint.eq_of_accept hacc
      exact h.reached uid hdue
  | close =>
      obtain rfl := Option.some.inj hstep
      exact h.reached uid hdue
  | publishMessage message qos =>
      obtain rfl := Option.some.inj hstep
      obtain ⟨hpasses, hnew⟩ :
          Passes { s.wrapper with ledger := s.wrapper.ledger.accept qos }
            (s.wrapper.publishMessage message qos) ∧
          (qos ≠ .atMostOnce → Reached (s.wrapper.publishMessage message qos) s.delivered
            s.wrapper.ledger.accepted.length) :=
        passes_publishMessage h.live.bounded hr message qos
      rcases Due.of_passes hpasses hdue with hwaited | ⟨hsince, haccepted⟩
      · exact hpasses.reached (h.reached uid (Or.inl hwaited))
      · rcases (accepted_concat (w := s.wrapper) rfl uid).1 haccepted with hold | ⟨rfl, hq⟩
        · exact hpasses.reached (h.reached uid (Or.inr ⟨hsince, hold⟩))
        · exact hnew hq
  | publishCachedMessage =>
      obtain rfl := Option.some.inj hstep
      have hpasses := passes_publishCachedMessage hr
      exact hpasses.reached (h.reached uid (hdue.of_passes hpasses))
  | clientReceive =>
      have hrecognised := hok.2
      simp only [Delivery.step] at hstep
      simp only [ReceiveOk] at hrecognised
      cases hw : s.wrapper.endpoint.written with
      | nil => simp [hw] at hstep
      | cons packet rest =>
          rw [hw] at hstep hrecognised
          obtain rfl := Option.some.inj hstep
          set s₀ : Net kind := { s with wrapper := { s.wrapper with
            endpoint := { s.wrapper.endpoint with written := rest } } }
          have hknown : s₀.Recognises packet := hrecognised packet rfl
          obtain ⟨hbefore, hgiven⟩ := delivered_clientHandle hknown
          obtain ⟨hwrapper, -⟩ := clientHandle_rest s₀ packet
          rw [hwrapper] at hdue ⊢
          rcases h.reached uid hdue with hwaits | hwire | hlost | hdone
          · exact Or.inl hwaits
          · rw [hw, show packet :: rest = [packet] ++ rest from rfl, transmitted_append] at hwire
            rcases mem_append.1 hwire with hfirst | hlater
            · exact Or.inr (Or.inr (Or.inr (hgiven hfirst)))
            · exact Or.inr (Or.inl hlater)
          · exact Or.inr (Or.inr (Or.inl hlost))
          · exact Or.inr (Or.inr (Or.inr (hbefore hdone)))
  | serverReceive =>
      simp only [Delivery.step] at hstep
      cases hup : s.up with
      | nil => simp [hup] at hstep
      | cons packet rest =>
          rw [hup] at hstep
          obtain rfl := Option.some.inj hstep
          exact h.reached uid hdue
  | expire messageId =>
      simp only [Delivery.step] at hstep
      split_ifs at hstep
      obtain rfl := Option.some.inj hstep
      exact h.reached uid hdue
  | runTask index =>
      obtain ⟨task, -, rfl⟩ := Option.map_eq_some_iff.1 hstep
      obtain ⟨hpasses, hdelivered⟩ := passes_runTask
        (s := { s with tasks := s.tasks.eraseIdx index }) hr task
      rw [hdelivered]
      exact hpasses.reached (h.reached uid (hdue.of_passes hpasses))

lemma carried_start (hw : Begins kind w) : Carried w (start w) := by
  refine ⟨hw.live.mono fun _ => False.elim, fun uid hdue => ?_⟩
  rcases hdue with hwaits | ⟨hsince, qos, hqos, -⟩
  · exact Or.inl hwaits
  · have hlt := (List.getElem?_eq_some_iff.1 hqos).1
    exact absurd hlt (Nat.not_lt.2 hsince)

/-- **Every message arrives.**  When a connected session is at rest, the client has passed on every
message of QoS 1 or 2 that waited when the session was opened or was accepted since, unless it was
given up for want of room or after its last retry. -/
theorem delivered_at_rest (hw : Begins kind w) (actions : List Action)
    (hok : AllSteps step (fun s action => AcceptOk s action ∧ ReceiveOk s action) (start w) actions)
    (s : Net kind) (hrun : run step (start w) actions = some s)
    (hrest : AtRest step Action.IsWork s) (hc : s.wrapper.endpoint.isConnected = true) (uid : ℕ)
    (hdue : Due w s.wrapper uid) : uid ∈ s.delivered ∨ uid ∈ s.wrapper.ledger.discarded := by
  have hcarried : Carried w s := invariant_run (I := Carried w)
    (fun _ _ _ _ h hok hstep => h.step hok hstep) (carried_start hw) hok hrun
  have hempty := (comes_to_rest hw actions (hok.imp fun _ _ hboth => hboth.1) s hrun).2.2 hrest hc
  obtain ⟨hwritten, -⟩ := atRest_iff.1 hrest
  rcases hcarried.reached uid hdue with hwaits | hwire | hlost | hdone
  · rw [hempty.1] at hwaits
    cases hwaits
  · rw [hwritten] at hwire
    cases hwire
  · exact Or.inr hlost
  · exact Or.inl hdone

theorem delivered_at_rest_sample : 1 ∈ sampleRest.delivered ∨
    1 ∈ sampleRest.wrapper.ledger.discarded :=
  delivered_at_rest (.transient _ _ _) sampleActions (by decide) sampleRest
    (Option.some_get _).symm (atRest_iff.2 (by decide)) (by decide) 1
    (Or.inr ⟨by decide, .atLeastOnce, by decide, by decide⟩)

end Delivery

end Stuart
