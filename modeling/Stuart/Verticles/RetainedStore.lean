/-
What the store of the retained messages contains.

`handleRetainMessage` deletes the entry of a topic, or hands the message to `save`, which writes a
topic that is stored already and goes on to the capacity check: a full store keeps the first write,
and any other store gets the message a second time.  So a topic that is stored can always be
overwritten, and a new one is stored iff there is room.  The store is a cell for each topic, written
by the messages that are accepted and cleared by the empty ones (`retainRun_spec`).
-/
import Stuart.Lib.Newest
import Stuart.Verticles.Access

namespace Stuart

open List Lib TopicUtil

namespace RetainCache

variable {s : RetainCache}

/-- How many topics are stored. -/
def size (s : RetainCache) : ℕ := s.cache.entries.length

lemma size_put_of_get {message old : MqttRetainMessage}
    (h : s.cache.get message.topic = some old) : (s.put message).size = s.size := by
  have hput := PlainMap.entries_put s.cache message.topic message
  have hperm := (PlainMap.entries_perm_of_get h).length_eq
  show (s.cache.put message.topic message).entries.length = s.cache.entries.length
  rw [hput, hperm, length_cons, length_cons]

lemma size_put_of_new {message : MqttRetainMessage} (h : s.cache.get message.topic = none) :
    (s.put message).size = s.size + 1 := by
  have hput := PlainMap.entries_put s.cache message.topic message
  show (s.cache.put message.topic message).entries.length = s.cache.entries.length + 1
  rw [hput, PlainMap.remove_of_get_none h, length_cons]

lemma size_delete_le (topic : Str) : (s.delete topic).size ≤ s.size := by
  simp only [delete]
  split_ifs
  · exact le_refl _
  · exact (kerase_sublist topic s.cache.entries).length_le

lemma size_delete {topic : Str} (hne : topic ≠ []) :
    (s.delete topic).size + (if s.cache.get topic = none then 0 else 1) = s.size := by
  simp only [delete]
  rw [if_neg (by simp [hne])]
  show (s.cache.remove topic).entries.length + _ = s.cache.entries.length
  cases hget : s.cache.get topic with
  | none => rw [PlainMap.remove_of_get_none hget, if_pos rfl, Nat.add_zero]
  | some old =>
      rw [if_neg (by simp), (PlainMap.entries_perm_of_get hget).length_eq, length_cons]

/-- There is a place for a topic: its own, or a free one. -/
def HasRoom (s : RetainCache) (maxCapacity : ℤ) (topic : Str) : Prop :=
  s.cache.get topic ≠ none ∨ (s.size : ℤ) < maxCapacity

lemma put_put (s : RetainCache) (message : MqttRetainMessage) (topic : Str) :
    ((s.put message).put message).cache.get topic = (s.put message).cache.get topic := by
  show ((s.cache.put message.topic message).put message.topic message).get topic =
    (s.cache.put message.topic message).get topic
  simp only [PlainMap.get_put]
  split_ifs <;> rfl

/-- `save` writes the topic if there is a place for it. -/
lemma get_save {message : MqttRetainMessage} (hne : message.topic ≠ []) (maxCapacity : ℤ)
    (topic : Str) :
    (s.HasRoom maxCapacity message.topic →
      (s.save maxCapacity message).cache.get topic = (s.put message).cache.get topic) ∧
    (¬s.HasRoom maxCapacity message.topic → s.save maxCapacity message = s) := by
  have hvalid : ¬(!validateTopic message.topic) = true := by simp [hne]
  simp only [save, HasRoom]
  rw [if_neg hvalid]
  by_cases hstored : s.cache.get message.topic = none
  · have hcontains : ¬s.cache.containsKey message.topic = true := by simp [hstored]
    rw [if_neg hcontains]
    by_cases hfull : (s.cache.entries.length : ℤ) ≥ maxCapacity
    · rw [if_pos hfull]
      exact ⟨fun h => absurd (h.resolve_left (not_not.2 hstored)) (not_lt.2 hfull), fun _ => rfl⟩
    · rw [if_neg hfull]
      exact ⟨fun _ => rfl, fun h => absurd (Or.inr (not_le.1 hfull)) h⟩
  · have hcontains : s.cache.containsKey message.topic = true := by simpa using hstored
    rw [if_pos hcontains]
    refine ⟨fun _ => ?_, fun h => absurd (Or.inl hstored) h⟩
    -- written once, or twice if the store is not full
    by_cases hfull : ((s.put message).cache.entries.length : ℤ) ≥ maxCapacity
    · rw [if_pos hfull]
    · rw [if_neg hfull]
      exact put_put s message topic

lemma get_put_topic (s : RetainCache) (message : MqttRetainMessage) (topic : Str) :
    (s.put message).cache.get topic =
      if topic = message.topic then some message else s.cache.get topic :=
  PlainMap.get_put _ _ _ _

/-- `save` makes the store larger iff it stores a new topic. -/
lemma size_save {message : MqttRetainMessage} (hne : message.topic ≠ []) (maxCapacity : ℤ) :
    (s.save maxCapacity message).size =
      if s.cache.get message.topic = none ∧ (s.size : ℤ) < maxCapacity then s.size + 1
      else s.size := by
  rw [save]
  rw [if_neg (by simp [hne])]
  cases hget : s.cache.get message.topic with
  | none =>
      have hcontains : ¬s.cache.containsKey message.topic = true := by simp [hget]
      rw [if_neg hcontains]
      by_cases hfull : (s.cache.entries.length : ℤ) ≥ maxCapacity
      · rw [if_pos hfull, if_neg fun h => absurd h.2 (not_lt.2 hfull)]
      · rw [if_neg hfull, if_pos ⟨rfl, not_le.1 hfull⟩, size_put_of_new hget]
  | some old =>
      have hcontains : s.cache.containsKey message.topic = true := by simp [hget]
      have hsize : (s.put message).size = s.size := size_put_of_get hget
      have hstored : (s.put message).cache.get message.topic = some message := by
        rw [get_put_topic, if_pos rfl]
      have hnot : ¬(some old = none ∧ (s.size : ℤ) < maxCapacity) := fun h => by cases h.1
      rw [if_pos hcontains, if_neg hnot]
      dsimp only
      split_ifs
      · exact hsize
      · rw [size_put_of_get hstored, hsize]

/-- The capacity is kept. -/
lemma size_save_le {maxCapacity : ℤ} (h : (s.size : ℤ) ≤ maxCapacity)
    (message : MqttRetainMessage) : ((s.save maxCapacity message).size : ℤ) ≤ maxCapacity := by
  by_cases hne : message.topic = []
  · simp only [save]
    rw [if_pos (by simp [hne, validateTopic])]
    exact h
  · rw [size_save hne]
    split_ifs with hnew
    · push_cast
      omega
    · exact h

end RetainCache

namespace Verticle

/-- Messages are handed to `handleRetainMessage` one after the other. -/
def retainRun (v : Verticle) (messages : List MqttPublishMessage) : Verticle :=
  messages.foldl handleRetainMessage v

/-- The stored message of a topic. -/
def retained (v : Verticle) (topic : Str) : Option MqttRetainMessage :=
  v.retainCache.cache.get topic

/-- A retained message with a payload that is neither empty nor too long. -/
def Storable (v : Verticle) (message : MqttPublishMessage) : Prop :=
  message.isRetain = true ∧ message.payload ≠ [] ∧
    (message.payload.length : ℤ) ≤ v.config.mqttRetainMaxPayload

/-- The message is stored when it comes. -/
def Accepts (v : Verticle) (message : MqttPublishMessage) : Prop :=
  v.Storable message ∧ (v.handleRetainMessage message).retained message.topicName =
    some message.convert2MqttRetainMessage

/-- A retained message without a payload. -/
def RetainedEmpty (message : MqttPublishMessage) : Prop :=
  message.isRetain = true ∧ message.payload = []

/-- A message is the last one that was accepted for a topic, and no retained empty message for it
has come since. -/
def LastAccepted (v : Verticle) (topic : Str) :
    List MqttPublishMessage → MqttRetainMessage → Prop :=
  Newest
    (fun before message stored => message.topicName = topic ∧ (v.retainRun before).Accepts message ∧
      stored = message.convert2MqttRetainMessage)
    fun _ message => message.topicName = topic ∧ RetainedEmpty message

/-! ### One message -/

variable {v : Verticle} {message : MqttPublishMessage}

lemma config_handleRetainMessage (v : Verticle) (message : MqttPublishMessage) :
    (v.handleRetainMessage message).config = v.config := by
  simp only [handleRetainMessage]
  split_ifs <;> rfl

lemma handleRetainMessage_of_storable (h : v.Storable message) :
    v.handleRetainMessage message = { v with
      retainCache := v.retainCache.save v.config.mqttRetainMaxCapacity
        message.convert2MqttRetainMessage } := by
  obtain ⟨hretain, hpayload, hlength⟩ := h
  simp only [handleRetainMessage]
  rw [if_neg (by simp [hretain]), if_neg (not_lt.2 hlength), if_neg (by simpa using hpayload)]

/-- A message that can be stored is accepted iff there is a place for its topic. -/
lemma accepts_iff (h : v.Storable message) (hne : message.topicName ≠ []) :
    v.Accepts message ↔
      v.retainCache.HasRoom v.config.mqttRetainMaxCapacity message.topicName := by
  obtain ⟨hroom, hfull⟩ := @RetainCache.get_save v.retainCache message.convert2MqttRetainMessage hne
    v.config.mqttRetainMaxCapacity message.topicName
  rw [Accepts, handleRetainMessage_of_storable h]
  constructor
  · rintro ⟨-, hstored⟩
    by_contra hno
    have hnone : v.retainCache.cache.get message.topicName = none := by
      by_contra hsome
      exact hno (Or.inl hsome)
    have hstored' : (v.retainCache.save v.config.mqttRetainMaxCapacity
        message.convert2MqttRetainMessage).cache.get message.topicName = some _ := hstored
    rw [hfull hno, hnone] at hstored'
    cases hstored'
  · intro hr
    exact ⟨h, (hroom hr).trans ((RetainCache.get_put_topic _ _ _).trans (if_pos rfl))⟩

/-- Without a topic nothing is saved or deleted. -/
lemma retainCache_of_noTopic (h : message.topicName = []) :
    (v.handleRetainMessage message).retainCache = v.retainCache := by
  have hvalid : (!validateTopic message.topicName) = true := by simp [h, validateTopic]
  simp only [handleRetainMessage]
  split_ifs
  · rfl
  · rfl
  · exact if_pos hvalid
  · exact if_pos hvalid

/-- The entry of a topic changes only with its own messages. -/
lemma retained_of_ne {topic : Str} (hne : topic ≠ message.topicName) :
    (v.handleRetainMessage message).retained topic = v.retained topic := by
  by_cases hvalid : message.topicName = []
  · rw [retained, retainCache_of_noTopic hvalid]
    rfl
  · simp only [handleRetainMessage]
    split_ifs with hretain hlong hempty
    · rfl
    · rfl
    · show (v.retainCache.delete message.topicName).cache.get topic = _
      simp only [RetainCache.delete]
      rw [if_neg (by simp [hvalid])]
      exact PlainMap.get_remove_of_ne _ hne
    · show (v.retainCache.save _ _).cache.get topic = _
      obtain ⟨hroom, hfull⟩ := @RetainCache.get_save v.retainCache
        message.convert2MqttRetainMessage hvalid v.config.mqttRetainMaxCapacity topic
      by_cases hr : v.retainCache.HasRoom v.config.mqttRetainMaxCapacity message.topicName
      · exact (hroom hr).trans ((RetainCache.get_put_topic _ _ _).trans (if_neg hne))
      · rw [hfull hr]
        rfl

/-- A message that is neither accepted nor a retained empty one leaves the entry of its topic. -/
lemma retained_of_not_accepts (haccepts : ¬v.Accepts message) (hempty : ¬RetainedEmpty message) :
    (v.handleRetainMessage message).retained message.topicName =
      v.retained message.topicName := by
  by_cases hvalid : message.topicName = []
  · rw [retained, retainCache_of_noTopic hvalid]
    rfl
  · by_cases hstorable : v.Storable message
    · rw [accepts_iff hstorable hvalid] at haccepts
      rw [handleRetainMessage_of_storable hstorable,
        (@RetainCache.get_save v.retainCache message.convert2MqttRetainMessage hvalid _
          message.topicName).2 haccepts]
    · simp only [handleRetainMessage]
      split_ifs with hretain hlong hnil
      · rfl
      · rfl
      · exact absurd ⟨by simpa using hretain, by simpa using hnil⟩ hempty
      · exact absurd ⟨by simpa using hretain, by simpa using hnil, not_lt.1 hlong⟩ hstorable

/-! ### Runs -/

/-- What the handler keeps: the configuration, the capacity, and that there is no entry without a
topic, nor any as long as the greatest payload is negative. -/
structure Bounded (config : MqttConfig) (v : Verticle) : Prop where
  same : v.config = config
  size : (v.retainCache.size : ℤ) ≤ config.mqttRetainMaxCapacity
  noTopic : v.retained [] = none
  negative : config.mqttRetainMaxPayload < 0 → ∀ topic, v.retained topic = none

lemma Bounded.handleRetainMessage {config : MqttConfig} (h : Bounded config v)
    (message : MqttPublishMessage) : Bounded config (v.handleRetainMessage message) where
  same := (config_handleRetainMessage v message).trans h.same
  size := by
    simp only [Verticle.handleRetainMessage]
    split_ifs
    · exact h.size
    · exact h.size
    · exact le_trans (by exact_mod_cast RetainCache.size_delete_le _) h.size
    · rw [h.same]
      exact RetainCache.size_save_le h.size _
  noTopic := by
    by_cases hvalid : message.topicName = []
    · rw [retained, retainCache_of_noTopic hvalid]
      exact h.noTopic
    · rw [retained_of_ne (Ne.symm hvalid)]
      exact h.noTopic
  negative := by
    intro hneg topic
    simp only [Verticle.handleRetainMessage]
    rw [h.same]
    have hlong : (message.payload.length : ℤ) > config.mqttRetainMaxPayload := by omega
    rw [if_pos hlong]
    split_ifs
    · exact h.negative hneg topic
    · exact h.negative hneg topic

lemma bounded_retainRun {config : MqttConfig} (h : Bounded config v)
    (messages : List MqttPublishMessage) : Bounded config (v.retainRun messages) := by
  induction messages generalizing v with
  | nil => exact h
  | cons message messages ih => exact ih (h.handleRetainMessage message)

lemma retainRun_concat (v : Verticle) (messages : List MqttPublishMessage)
    (message : MqttPublishMessage) :
    v.retainRun (messages ++ [message]) = (v.retainRun messages).handleRetainMessage message := by
  simp [retainRun, foldl_append]

/-- A retained empty message clears its topic. -/
lemma retained_of_empty {config : MqttConfig} (h : Bounded config v)
    (hempty : RetainedEmpty message) :
    (v.handleRetainMessage message).retained message.topicName = none := by
  obtain ⟨hretain, hpayload⟩ := hempty
  by_cases hneg : config.mqttRetainMaxPayload < 0
  · exact (h.handleRetainMessage message).negative hneg _
  · by_cases hvalid : message.topicName = []
    · rw [hvalid]
      exact (h.handleRetainMessage message).noTopic
    · simp only [Verticle.handleRetainMessage]
      have hshort : ¬(message.payload.length : ℤ) > v.config.mqttRetainMaxPayload := by
        rw [hpayload, h.same]
        exact hneg ∘ fun hlt => by simpa using hlt
      rw [if_neg (by simp [hretain]), if_neg hshort, if_pos (by simp [hpayload])]
      simp only [RetainCache.delete]
      rw [if_neg (by simp [hvalid])]
      exact PlainMap.get_remove_self _ _

/-- **The content of the retained store.**  For every configuration and every sequence of messages,
from an empty store: at most as many topics are stored as the capacity allows; a topic is stored
with a message iff that is the last one accepted for it and no retained empty message for it has
come since; the next message, if it can be stored, is accepted iff its topic is stored already or
there is room; and it does not change the entry of another topic. -/
theorem retainRun_spec (v : Verticle) (hempty : v.retainCache = .empty)
    (hcapacity : 0 ≤ v.config.mqttRetainMaxCapacity) (messages : List MqttPublishMessage) :
    ((v.retainRun messages).retainCache.size : ℤ) ≤ v.config.mqttRetainMaxCapacity ∧
    (∀ topic stored, (v.retainRun messages).retained topic = some stored ↔
      v.LastAccepted topic messages stored) ∧
    ∀ message,
      (message.topicName ≠ [] → (v.retainRun messages).Storable message →
        ((v.retainRun messages).Accepts message ↔
          (v.retainRun messages).retained message.topicName ≠ none ∨
          ((v.retainRun messages).retainCache.size : ℤ) < v.config.mqttRetainMaxCapacity)) ∧
      ∀ topic, topic ≠ message.topicName →
        ((v.retainRun messages).handleRetainMessage message).retained topic =
          (v.retainRun messages).retained topic := by
  have hinit : Bounded v.config v := by
    have hnone : ∀ topic, v.retained topic = none := fun topic => by
      rw [retained, hempty]
      exact PlainMap.get_empty topic
    refine ⟨rfl, ?_, hnone [], fun _ => hnone⟩
    rw [hempty]
    exact hcapacity
  have hbounded := fun messages => bounded_retainRun hinit messages
  refine ⟨(hbounded messages).size, fun topic stored => ?_, fun message => ⟨?_, ?_⟩⟩
  · refine @eq_some_iff_newest _ _ _ _ (fun messages => (v.retainRun messages).retained topic) ?_ ?_
      ?_ ?_ messages stored
    · show v.retained topic = none
      rw [retained, hempty]
      exact PlainMap.get_empty topic
    · rintro before message stored ⟨rfl, haccepts, rfl⟩
      show (v.retainRun (before ++ [message])).retained _ = _
      rw [retainRun_concat]
      exact haccepts.2
    · rintro before message ⟨rfl, hmessage⟩
      show (v.retainRun (before ++ [message])).retained _ = _
      rw [retainRun_concat]
      exact retained_of_empty (hbounded before) hmessage
    · intro before message hclear hwrite
      show (v.retainRun (before ++ [message])).retained _ = _
      rw [retainRun_concat]
      by_cases htopic : message.topicName = topic
      · subst htopic
        exact retained_of_not_accepts (fun h => hwrite _ ⟨rfl, h, rfl⟩)
          fun h => hclear ⟨rfl, h⟩
      · exact retained_of_ne (Ne.symm htopic)
  · intro hne hstorable
    rw [accepts_iff hstorable hne, (hbounded messages).same]
    rfl
  · exact fun topic hne => retained_of_ne hne

/-- A verticle with room for one retained message of at most four bytes. -/
def narrowStore : Verticle := initial ⟨false, false, 4, 1⟩ none

def retainedPublish (topic : Char) (payload : List UInt8) : MqttPublishMessage :=
  ⟨[topic], 0, payload, .atMostOnce, false, true⟩

/-- The full store refuses the second topic, and takes the second message for the first one. -/
theorem retainRun_spec_narrow :
    ¬(narrowStore.retainRun [retainedPublish 'a' [1]]).Accepts (retainedPublish 'b' [2]) ∧
      narrowStore.LastAccepted ['a']
        [retainedPublish 'a' [1], retainedPublish 'b' [2], retainedPublish 'a' [3]]
        (retainedPublish 'a' [3]).convert2MqttRetainMessage := by
  obtain ⟨-, -, hnext⟩ := retainRun_spec narrowStore rfl (by decide) [retainedPublish 'a' [1]]
  obtain ⟨-, hstored, -⟩ := retainRun_spec narrowStore rfl (by decide)
    [retainedPublish 'a' [1], retainedPublish 'b' [2], retainedPublish 'a' [3]]
  refine ⟨fun haccepts => ?_, (hstored _ _).1 (by decide)⟩
  have hroom := ((hnext (retainedPublish 'b' [2])).1 (by decide)
    ⟨by decide, by decide, by decide⟩).1 haccepts
  exact absurd hroom (by decide)

end Verticle

end Stuart
