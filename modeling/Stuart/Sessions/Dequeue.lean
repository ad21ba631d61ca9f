/-
What `dequeue` does with the messages that it takes from the queue.

The condition of its loop publishes a message of QoS 0 and, if that went well, goes on to the
branch of the other messages, so the message is stored in the window and published a second time.
A message of QoS 1 or 2 is stored and sent once, but a persistent wrapper sends it also when
`inflights.put` has refused it.  `dequeue_lawful_iff` says for which queues and windows neither
happens.
-/
import Stuart.Sessions.Conservation
import Stuart.Sessions.SessionFrame
import Mathlib.Data.Finset.Card

namespace Stuart

open List Lib

namespace Inflights

variable {kind : SessionKind}

/-- The packet ids of the inflight messages. -/
def keys : {kind : SessionKind} → Inflights kind → Finset ℤ
  | .transient, m => (AList.keys m).toFinset
  | .persistent, m => (BoundedIgniteMapUnsafe.set m).toFinset

/-- The capacity of the window: that of the configuration or that of the stored map. -/
def capacity (config : Config) : {kind : SessionKind} → Inflights kind → ℤ
  | .transient, _ => config.sessionInflightMaxCapacity
  | .persistent, m => BoundedIgniteMapUnsafe.capacity m

lemma mem_keys {m : Inflights kind} {key : ℤ} : key ∈ m.keys ↔ m.get key ≠ none := by
  cases kind with
  | transient =>
      have hget := not_congr (PlainMap.get_eq_none_iff m key)
      rw [not_not] at hget
      exact mem_toFinset.trans hget.symm
  | persistent => exact mem_toFinset.trans (BoundedIgniteMapUnsafe.mem_set m key)

lemma isFull_iff (config : Config) (m : Inflights kind) : m.isFull config = true ↔
    m.capacity config > 0 ∧ (m.keys.card : ℤ) ≥ m.capacity config := by
  cases kind with
  | transient =>
      have hcard : (AList.keys m).toFinset.card = (PlainMap.values m).length := by
        rw [toFinset_card_of_nodup (AList.keys_nodup m)]
        simp only [PlainMap.values, AList.keys, List.keys]
        rw [length_map, length_map]
      show decide _ = true ↔ _ ∧ ((AList.keys m).toFinset.card : ℤ) ≥ _
      rw [hcard, decide_eq_true_eq]
      rfl
  | persistent =>
      have hcard := toFinset_card_of_nodup (BoundedIgniteMapUnsafe.nodup m)
      show decide _ = true ↔ _ ∧ ((BoundedIgniteMapUnsafe.set m).toFinset.card : ℤ) ≥ _
      rw [hcard, decide_eq_true_eq]
      rfl

/-- The window takes a message under this id. -/
def Accepts (config : Config) (m : Inflights kind) (key : ℤ) : Prop :=
  kind = .persistent → 0 < m.capacity config ∨ key ∈ m.keys

/-- In a window that is not full a `put` does what it should iff the window takes the message. -/
lemma get_put_iff {config : Config} {m : Inflights kind} (hfull : m.isFull config = false)
    (key : ℤ) (message : MqttMessage) :
    (∀ key', (m.put key message).get key' = if key' = key then some message else m.get key') ↔
      m.Accepts config key := by
  cases kind with
  | transient =>
      exact iff_of_true (fun key' => PlainMap.get_put m key key' message) (by simp [Accepts])
  | persistent =>
      have hacc : BoundedIgniteMapUnsafe.accepts m key ↔ m.Accepts config key := by
        have hroom := hfull
        simp only [isFull, BoundedIgniteMapUnsafe.isFull, decide_eq_false_iff_not, not_and,
          Int.not_le] at hroom
        unfold Accepts BoundedIgniteMapUnsafe.accepts
        rw [mem_keys]
        constructor
        · rintro (hget | hcap) -
          · exact Or.inr hget
          · exact Or.inl hcap.1
        · intro h
          rcases h rfl with hcap | hget
          · exact Or.inr ⟨hcap, hroom hcap⟩
          · exact Or.inl hget
      rw [← hacc]
      by_cases h : BoundedIgniteMapUnsafe.accepts m key
      · have hput := BoundedIgniteMapUnsafe.put_of_accepts m h message
        refine iff_of_true (fun key' => ?_) h
        show BoundedIgniteMapUnsafe.get (BoundedIgniteMapUnsafe.put m key message).2 key' = _
        rw [hput]
        exact BoundedIgniteMapUnsafe.get_insert m key key' message
      · have hput := BoundedIgniteMapUnsafe.put_of_not_accepts m h message
        refine iff_of_false (fun hget => ?_) h
        have hkey : BoundedIgniteMapUnsafe.get (BoundedIgniteMapUnsafe.put m key message).2 key =
            some message := (hget key).trans (if_pos rfl)
        rw [hput] at hkey
        exact h (Or.inl (by simp [hkey]))

end Inflights

namespace SessionWrapper

variable {kind : SessionKind}

/-- A message that `dequeue` takes from the queue, with the wrapper after the poll and at the end
of the round. -/
structure Taken (kind : SessionKind) where
  before : SessionWrapper kind
  message : MqttMessage
  after : SessionWrapper kind

/-- The rounds of the loop of `dequeue` that take a message. -/
def takenFrom (w : SessionWrapper kind) : List MqttMessage → List (Taken kind)
  | [] => []
  | message :: rest =>
      if !w.endpoint.isConnected || w.isInflightFull then []
      else
        ⟨w.setQueue rest, message, ((w.setQueue rest).sendPolled message).2⟩ ::
          match (w.setQueue rest).sendPolled message with
          | (true, w') => takenFrom w' rest
          | (false, _) => []

def taken (w : SessionWrapper kind) : List (Taken kind) := w.takenFrom w.queue.items

namespace Taken

/-- The packets that the round writes. -/
def packets (t : Taken kind) : List MqttPacket :=
  t.after.endpoint.written.drop t.before.endpoint.written.length

/-- The message is sent once.  One of QoS 0 leaves the window and the timers alone, one of QoS 1 or
2 enters the window under the id that it is sent with. -/
def Lawful (t : Taken kind) : Prop :=
  ∃ messageId, t.packets = [.publish messageId t.message.uid t.message.topic t.message.payload
      t.message.qos t.message.dup t.message.retain] ∧
    if t.message.qos = .atMostOnce then
      t.after.inflights = t.before.inflights ∧ t.after.timeouts = t.before.timeouts
    else ∀ key, t.after.inflights.get key =
      if key = messageId then some { t.message with messageId := messageId }
      else t.before.inflights.get key

end Taken

variable (w : SessionWrapper kind)

/-- The window after the next `i` packet ids were added to its keys. -/
def window (i : ℕ) : Finset ℤ :=
  w.inflights.keys ∪ (PersistentSessionWrapper.idsFrom w.endpoint.lastMessageId i).toFinset

/-- The window has still room after the next `i` packet ids. -/
def HasRoom (i : ℕ) : Prop :=
  w.inflights.capacity w.config > 0 →
    ((w.window i).card : ℤ) < w.inflights.capacity w.config

/-- Every message that finds room has QoS 1 or 2 and is taken by the window under its packet
id. -/
def TakesOkFrom (items : List MqttMessage) : Prop :=
  ∀ i message, items[i]? = some message → w.HasRoom i →
    message.qos ≠ .atMostOnce ∧ (kind = .persistent →
      0 < w.inflights.capacity w.config ∨ nextId^[i + 1] w.endpoint.lastMessageId ∈ w.window i)

def TakesOk : Prop := w.TakesOkFrom w.queue.items

/-! ### The window -/

variable {w}

lemma window_zero : w.window 0 = w.inflights.keys := by
  simp only [window, PersistentSessionWrapper.idsFrom]
  rw [toFinset_nil, Finset.union_empty]

lemma hasRoom_zero_iff : w.HasRoom 0 ↔ w.isInflightFull = false := by
  simp only [isInflightFull, HasRoom]
  rw [window_zero, ← Bool.not_eq_true, Inflights.isFull_iff, not_and, not_le]

/-- A full window stays full when ids are added to it. -/
lemma not_hasRoom_of_full (hfull : w.isInflightFull = true) (i : ℕ) : ¬w.HasRoom i := by
  obtain ⟨hpos, hge⟩ := (Inflights.isFull_iff w.config w.inflights).1 hfull
  intro hroom
  have hlt := hroom hpos
  have hle : w.inflights.keys.card ≤ (w.window i).card :=
    Finset.card_le_card Finset.subset_union_left
  omega

/-- The wrapper after a message was stored under the next id and sent. -/
structure Advanced (w w' : SessionWrapper kind) : Prop where
  keys : w'.inflights.keys = insert (nextId w.endpoint.lastMessageId) w.inflights.keys
  capacity : w'.inflights.capacity w'.config = w.inflights.capacity w.config
  lastMessageId : w'.endpoint.lastMessageId = nextId w.endpoint.lastMessageId

variable {w' : SessionWrapper kind}

lemma Advanced.window (h : Advanced w w') (i : ℕ) : w'.window i = w.window (i + 1) := by
  simp only [SessionWrapper.window]
  rw [h.keys, h.lastMessageId, PersistentSessionWrapper.idsFrom, toFinset_cons, Finset.insert_union,
    Finset.union_insert]

/-- The condition on a queue is that on its first message, and that on the rest for the wrapper
after it. -/
lemma Advanced.takesOkFrom_cons (h : Advanced w w') {message : MqttMessage}
    {rest : List MqttMessage} (hqos : message.qos ≠ .atMostOnce)
    (haccepts : w.inflights.Accepts w.config (nextId w.endpoint.lastMessageId)) :
    w.TakesOkFrom (message :: rest) ↔ w'.TakesOkFrom rest := by
  have hshift : ∀ i, w'.HasRoom i ↔ w.HasRoom (i + 1) := by
    intro i
    simp only [HasRoom]
    rw [h.capacity, h.window]
  simp only [TakesOkFrom]
  constructor
  · intro hok i message' hget hroom
    have htail := hok (i + 1) message' hget ((hshift i).1 hroom)
    rw [Function.iterate_succ_apply] at htail
    rw [h.capacity, h.window, h.lastMessageId]
    exact htail
  · intro hok i message' hget hroom
    cases i with
    | zero =>
        obtain rfl := Option.some.inj hget
        rw [window_zero]
        exact ⟨hqos, haccepts⟩
    | succ i =>
        have htail := hok i message' hget ((hshift i).2 hroom)
        rw [h.capacity, h.window, h.lastMessageId] at htail
        rw [Function.iterate_succ_apply]
        exact htail

/-! ### One round -/

variable {message : MqttMessage}

lemma sent_written (hc : w.endpoint.isConnected = true) (message : MqttMessage) :
    (w.sent message).endpoint.written = w.endpoint.written ++
      [.publish (nextId w.endpoint.lastMessageId) message.uid message.topic message.payload
        message.qos message.dup message.retain] := by
  simp only [sent]
  refine congrArg (fun r : ℤ × SessionWrapper kind => r.2.endpoint.written)
    (publish_of_connected _ _ false ?_)
  exact hc

/-- A message of QoS 0 is published and then stored and published. -/
lemma sendPolled_qos0 (hc : w.endpoint.isConnected = true) (hr : w.endpoint.InRange)
    (hqos : message.qos = .atMostOnce) :
    w.sendPolled message = (true, (w.publish message false).2.sent message) := by
  have hkept := kept_publish w message false
  have hpublish : (w.publish message false).1 = 0 := by
    rw [publish_of_connected w message false hc, if_pos hqos]
  obtain ⟨hid, hpos⟩ := nextMessageId_of_connected (hkept.isConnected.trans hc) (hkept.inRange hr)
  rw [hid] at hpos
  rw [sendPolled, sent]
  dsimp only
  rw [if_neg fun h => h.2 hpublish, if_pos hqos, hid, if_pos hpos]

lemma written_sendPolled (hc : w.endpoint.isConnected = true) (hr : w.endpoint.InRange)
    (message : MqttMessage) :
    ∃ packets, (w.sendPolled message).2.endpoint.written = w.endpoint.written ++ packets := by
  by_cases hqos : message.qos = .atMostOnce
  · have hc' := (kept_publish w message false).isConnected.trans hc
    rw [sendPolled_qos0 hc hr hqos, sent_written hc', publish_of_connected w message false hc]
    exact ⟨_, append_assoc _ _ _⟩
  · rw [sendPolled_eq hc hr hqos, sent_written hc]
    exact ⟨_, rfl⟩

/-- A message of QoS 0 is sent twice. -/
lemma not_lawful_qos0 (hc : w.endpoint.isConnected = true) (hr : w.endpoint.InRange)
    (hqos : message.qos = .atMostOnce) :
    ¬Taken.Lawful ⟨w, message, (w.sendPolled message).2⟩ := by
  rintro ⟨messageId, hpackets, -⟩
  have hlength := congrArg length hpackets
  have hfirst : (w.publish message false).2.endpoint.written.length =
      w.endpoint.written.length + 1 := by
    rw [publish_of_connected w message false hc]
    exact length_append
  have hsecond := congrArg length
    (sent_written ((kept_publish w message false).isConnected.trans hc) message)
  rw [length_append, length_singleton, hfirst] at hsecond
  simp only [Taken.packets] at hlength
  rw [sendPolled_qos0 hc hr hqos] at hlength
  dsimp only at hlength
  rw [length_drop, hsecond, length_singleton] at hlength
  omega

/-- A message of QoS 1 or 2 is sent once, and it enters the window iff the window takes it. -/
lemma lawful_iff_accepts (hc : w.endpoint.isConnected = true) (hr : w.endpoint.InRange)
    (hfull : w.isInflightFull = false) (hqos : message.qos ≠ .atMostOnce) :
    Taken.Lawful ⟨w, message, (w.sendPolled message).2⟩ ↔
      w.inflights.Accepts w.config (nextId w.endpoint.lastMessageId) := by
  have hpackets : Taken.packets ⟨w, message, (w.sendPolled message).2⟩ =
      [.publish (nextId w.endpoint.lastMessageId) message.uid message.topic message.payload
        message.qos message.dup message.retain] := by
    simp only [Taken.packets]
    rw [sendPolled_eq hc hr hqos, sent_written hc, drop_left]
  have hput := Inflights.get_put_iff (show w.inflights.isFull w.config = false from hfull)
    (nextId w.endpoint.lastMessageId)
    { message with messageId := nextId w.endpoint.lastMessageId }
  rw [← hput]
  rw [Taken.Lawful]
  rw [hpackets]
  dsimp only
  simp only [if_neg hqos]
  rw [sendPolled_eq hc hr hqos, sent_inflights]
  constructor
  · rintro ⟨messageId, hid, hget⟩
    simp only [cons.injEq, MqttPacket.publish.injEq, and_true] at hid
    subst hid
    exact hget
  · intro hget
    exact ⟨_, rfl, hget⟩

/-- Then the wrapper has one id more in its window. -/
lemma advanced_sent (hc : w.endpoint.isConnected = true) (hfull : w.isInflightFull = false)
    (haccepts : w.inflights.Accepts w.config (nextId w.endpoint.lastMessageId))
    (message : MqttMessage) : Advanced w (w.sent message) where
  keys := by
    have hput := (Inflights.get_put_iff (show w.inflights.isFull w.config = false from hfull)
      (nextId w.endpoint.lastMessageId)
      { message with messageId := nextId w.endpoint.lastMessageId }).2 haccepts
    ext key
    rw [sent_inflights, Inflights.mem_keys, hput, Finset.mem_insert, Inflights.mem_keys]
    split_ifs with hkey <;> simp [hkey]
  capacity := by
    have hconfig : (w.sent message).config = w.config :=
      (kept_publish _ _ _).config
    rw [sent_inflights, hconfig]
    cases kind with
    | transient => rfl
    | persistent =>
        show BoundedIgniteMapUnsafe.capacity (BoundedIgniteMapUnsafe.put w.inflights _ _).2 =
          BoundedIgniteMapUnsafe.capacity w.inflights
        simp only [BoundedIgniteMapUnsafe.put]
        split_ifs <;> rfl
  lastMessageId := (sent_endpoint hc message).2

/-! ### The loop -/

/-- On a connected endpoint a round polls a message unless the window is full, and goes on. -/
lemma takenFrom_cons (hc : w.endpoint.isConnected = true) (hr : w.endpoint.InRange)
    (hfull : w.isInflightFull = false) (message : MqttMessage) (rest : List MqttMessage) :
    w.takenFrom (message :: rest) =
        ⟨w.setQueue rest, message, ((w.setQueue rest).sendPolled message).2⟩ ::
          ((w.setQueue rest).sendPolled message).2.takenFrom rest ∧
      w.dequeueFrom (message :: rest) =
        ((w.setQueue rest).sendPolled message).2.dequeueFrom rest := by
  have hgoes := sendPolled_fst (w.setQueue rest) hc hr message
  have hopen : ¬(!w.endpoint.isConnected || w.isInflightFull) = true := by simp [hc, hfull]
  rw [takenFrom, dequeueFrom, if_neg hopen, if_neg hopen]
  cases hsend : (w.setQueue rest).sendPolled message with
  | mk goesOn w' =>
      rw [hsend] at hgoes
      obtain rfl : goesOn = true := hgoes
      exact ⟨rfl, rfl⟩

lemma takenFrom_of_full (hfull : w.isInflightFull = true) (items : List MqttMessage) :
    w.takenFrom items = [] ∧ w.dequeueFrom items = w.setQueue items := by
  cases items with
  | nil => exact ⟨rfl, rfl⟩
  | cons message rest =>
      simp only [takenFrom, dequeueFrom]
      rw [if_pos (by simp [hfull]), if_pos (by simp [hfull])]
      exact ⟨rfl, rfl⟩

/-- The messages taken are those that are gone from the queue, and their packets are those that
`dequeue` writes. -/
lemma dequeueFrom_spec (hc : w.endpoint.isConnected = true) (hr : w.endpoint.InRange)
    (items : List MqttMessage) :
    items = (w.takenFrom items).map Taken.message ++ (w.dequeueFrom items).queue.items ∧
      (w.dequeueFrom items).endpoint.written =
        w.endpoint.written ++ (w.takenFrom items).flatMap Taken.packets := by
  induction items generalizing w with
  | nil => exact ⟨rfl, (append_nil _).symm⟩
  | cons message rest ih =>
      cases hfull : w.isInflightFull with
      | true =>
          obtain ⟨htaken, hdequeue⟩ := takenFrom_of_full hfull (message :: rest)
          rw [htaken, hdequeue]
          exact ⟨rfl, (append_nil _).symm⟩
      | false =>
          obtain ⟨htaken, hdequeue⟩ := takenFrom_cons hc hr hfull message rest
          have hkept := kept_sendPolled (w.setQueue rest) message
          obtain ⟨hitems, hwritten⟩ := ih (hkept.isConnected.trans hc) (hkept.inRange hr)
          obtain ⟨packets, hpackets⟩ := written_sendPolled (w := w.setQueue rest) hc hr message
          rw [htaken, hdequeue, map_cons, cons_append, flatMap_cons, hwritten, ← append_assoc]
          refine ⟨congrArg (message :: ·) hitems, congrArg (· ++ _) ?_⟩
          rw [Taken.packets]
          dsimp only
          rw [hpackets, drop_left]
          rfl

/-- Every message that `dequeue` takes is handled as its QoS demands iff every message that finds
room has QoS 1 or 2 and is taken by the window. -/
theorem dequeue_lawful_iff (w : SessionWrapper kind) (hc : w.endpoint.isConnected = true)
    (hr : w.endpoint.InRange) :
    (w.queue.items = w.taken.map Taken.message ++ w.dequeue.queue.items ∧
      w.dequeue.endpoint.written = w.endpoint.written ++ w.taken.flatMap Taken.packets) ∧
    ((∀ t ∈ w.taken, t.Lawful) ↔ w.TakesOk) := by
  refine ⟨dequeueFrom_spec hc hr w.queue.items, ?_⟩
  have hloop : ∀ (items : List MqttMessage) (w : SessionWrapper kind),
      w.endpoint.isConnected = true → w.endpoint.InRange →
      ((∀ t ∈ w.takenFrom items, t.Lawful) ↔ w.TakesOkFrom items) := by
    intro items
    induction items with
    | nil => exact fun w _ _ => iff_of_true (by simp [takenFrom]) (by simp [TakesOkFrom])
    | cons message rest ih =>
        intro w hc hr
        cases hfull : w.isInflightFull with
        | true =>
            rw [(takenFrom_of_full hfull _).1]
            exact iff_of_true (by simp) fun i _ _ hroom =>
              absurd hroom (not_hasRoom_of_full hfull i)
        | false =>
            have hroom := hasRoom_zero_iff.2 hfull
            rw [(takenFrom_cons hc hr hfull message rest).1, forall_mem_cons]
            by_cases hqos : message.qos = .atMostOnce
            · refine iff_of_false (fun h => not_lawful_qos0 (w := w.setQueue rest) hc hr hqos h.1)
                fun hok => (hok 0 message rfl hroom).1 hqos
            · have hlawful : _ ↔ w.inflights.Accepts w.config (nextId w.endpoint.lastMessageId) :=
                lawful_iff_accepts (w := w.setQueue rest) hc hr hfull hqos
              rw [hlawful]
              by_cases haccepts : w.inflights.Accepts w.config (nextId w.endpoint.lastMessageId)
              · have hkept := kept_sendPolled (w.setQueue rest) message
                have hadvanced := advanced_sent (w := w.setQueue rest) hc hfull haccepts message
                rw [and_iff_right haccepts, ih _ (hkept.isConnected.trans hc) (hkept.inRange hr),
                  sendPolled_eq (w := w.setQueue rest) hc hr hqos,
                  ← hadvanced.takesOkFrom_cons hqos haccepts]
                rfl
              · refine iff_of_false (fun h => haccepts h.1) fun hok => haccepts ?_
                have hfirst := (hok 0 message rfl hroom).2
                rw [window_zero] at hfirst
                exact hfirst
  exact hloop w.queue.items w hc hr

/-- A connected wrapper with messages in its queue. -/
def withQueued (messages : List MqttMessage) : SessionWrapper .transient :=
  { TransientSessionWrapper.new sampleConfig sampleEndpoint with queue := ⟨10, messages⟩ }

/-- A message of each QoS. -/
def mixedQueue : SessionWrapper .transient :=
  withQueued [sampleMessage, { sampleMessage with qos := .exactlyOnce },
    { sampleMessage with qos := .atMostOnce }]

theorem dequeue_lawful_iff_mixed :
    mixedQueue.taken.map (fun t => t.message.qos) = [.atLeastOnce, .exactlyOnce, .atMostOnce] ∧
      (mixedQueue.queue.items = mixedQueue.taken.map Taken.message ++
          mixedQueue.dequeue.queue.items ∧
        mixedQueue.dequeue.endpoint.written =
          mixedQueue.endpoint.written ++ mixedQueue.taken.flatMap Taken.packets) ∧
      ((∀ t ∈ mixedQueue.taken, t.Lawful) ↔ mixedQueue.TakesOk) :=
  ⟨by decide, dequeue_lawful_iff mixedQueue rfl (MqttEndpoint.inRange_create 0 ['c'] true)⟩

/-- A connected wrapper with one message of QoS 0 in its queue. -/
def withQos0 : SessionWrapper .transient := withQueued [{ sampleMessage with qos := .atMostOnce }]

/-- A message of QoS 0 in the queue of a connected client goes out twice and stays in the window
with a timer. -/
theorem not_dequeue_lawful :
    withQos0.dequeue.endpoint.written.length = 2 ∧ withQos0.dequeue.timeouts = [2] ∧
    withQos0.dequeue.inflights.get 2 ≠ none ∧ ¬∀ t ∈ withQos0.taken, t.Lawful := by
  refine ⟨by decide, by decide, by decide, fun h => ?_⟩
  exact not_lawful_qos0 (w := withQos0.setQueue []) rfl
    (MqttEndpoint.inRange_create 0 ['c'] true) rfl (h _ mem_cons_self)

end SessionWrapper

end Stuart
