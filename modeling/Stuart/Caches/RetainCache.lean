/-
The retained messages, and when a subscription gets the ones that its filter matches.

`RetainCacheImpl.get` scans the cache with the mirrored matcher `rmatch`, whose wildcards stand
in its first argument, and hands it the stored topic first and the filter second.  So the filter
is compared as a plain topic: the scan selects the stored topics with the words of the filter
(`RetainCache.selects_iff`).  The lookup is therefore right as long as the filter matches no
stored topic but itself.
-/
import Stuart.Caches.Routing

namespace Stuart

open List Lib TopicConst TopicUtil TopicMatchFunction

namespace QosUtil

def downgrade (messageQos topicQos : ℤ) : ℤ :=
  if messageQos < topicQos then messageQos else topicQos

def upgrade (messageQos topicQos : ℤ) : ℤ :=
  if messageQos > topicQos then messageQos else topicQos

/-- `calculate`, with the flag `isSessionUpgradeQos` of the configuration. -/
def calculate (upgradeQos : Bool) (messageQos topicQos : ℤ) : ℤ :=
  if upgradeQos then upgrade messageQos topicQos else downgrade messageQos topicQos

end QosUtil

structure MqttRetainMessage where
  topic : Str
  payload : List UInt8
  qos : ℤ
  dup : Bool
deriving DecidableEq

/-- The Ignite cache of the retained messages: every message stands under its own topic. -/
structure RetainCache where
  cache : PlainMap Str MqttRetainMessage
  keyed : ∀ topic message, cache.get topic = some message → message.topic = topic

namespace RetainCache

def empty : RetainCache := ⟨∅, by simp⟩

/-- `cache.put(message.getTopic(), message)`. -/
def put (s : RetainCache) (message : MqttRetainMessage) : RetainCache where
  cache := s.cache.put message.topic message
  keyed := by
    intro topic m h
    rw [PlainMap.get_put] at h
    split_ifs at h with heq
    · cases h
      exact heq.symm
    · exact s.keyed topic m h

/-- `save`, with the configured capacity: a new topic is not stored into a full cache. -/
def save (s : RetainCache) (maxCapacity : ℤ) (message : MqttRetainMessage) : RetainCache :=
  if !validateTopic message.topic then s
  else
    let s' := if s.cache.containsKey message.topic then s.put message else s
    if (s'.cache.entries.length : ℤ) ≥ maxCapacity then s' else s'.put message

def delete (s : RetainCache) (topic : Str) : RetainCache :=
  if !validateTopic topic then s
  else
    { cache := s.cache.remove topic
      keyed := by
        intro topic' m h
        rw [PlainMap.get_remove] at h
        split_ifs at h
        exact s.keyed topic' m h }

/-- The stored messages, in the order of iteration. -/
def messages (s : RetainCache) : List MqttRetainMessage := s.cache.values

/-- The message as the scan returns it, with the QoS set. -/
def withQos (upgradeQos : Bool) (qos : ℤ) (retain : MqttRetainMessage) : MqttRetainMessage :=
  { retain with qos := QosUtil.calculate upgradeQos retain.qos qos }

/-- `get(topic, qos)`; the topic is the filter of a subscription. -/
def get (s : RetainCache) (upgradeQos : Bool) (topic : Str) (qos : ℤ) :
    Option (List MqttRetainMessage) :=
  if !validateTopic topic then none
  else some ((s.messages.filter fun retain => rmatch retain.topic topic = 1).map
    (withQos upgradeQos qos))

/-- The content is what publishing can store: every topic is accepted. -/
def Accepted (s : RetainCache) : Prop :=
  ∀ message ∈ s.messages, checkPublishTopic message.topic = true

instance (s : RetainCache) : Decidable s.Accepted :=
  inferInstanceAs (Decidable (∀ message ∈ s.messages, _))

/-- A live publish of the topic is routed to the filter: on every router cache reached with
accepted filters, each router stored for the filter is selected. -/
def RoutedTo (topic filter : Str) : Prop :=
  ∀ ops : List RouterCache.Op, (∀ op ∈ ops, op.Accepted) →
    ∀ router ∈ (RouterCache.run ops).routerCache.values, router.topic = filter →
      router.topic ∈ ((RouterCache.run ops).getMatches topic).getD ∅

/-- The lookup returns the stored messages whose topic the filter matches, each once and with the
calculated QoS, and these are the ones that a live publish would have routed to the filter. -/
def RetainedExact (s : RetainCache) (upgradeQos : Bool) (filter : Str) (qos : ℤ) : Prop :=
  (∃ result, s.get upgradeQos filter qos = some result ∧
    result ~ (s.messages.filter fun retain => topicMatch retain.topic filter = 1).map
      (withQos upgradeQos qos)) ∧
  ∀ retain ∈ s.messages, topicMatch retain.topic filter = 1 ↔ RoutedTo retain.topic filter

/-! ### What the scan selects -/

lemma mem_messages_iff (s : RetainCache) (message : MqttRetainMessage) :
    message ∈ s.messages ↔ s.cache.get message.topic = some message := by
  rw [messages, PlainMap.mem_values_iff]
  refine ⟨fun ⟨topic, h⟩ => ?_, fun h => ⟨_, h⟩⟩
  rw [s.keyed topic message h]
  exact h

/-- No two stored messages have the same topic. -/
lemma eq_of_topic_eq (s : RetainCache) {m m' : MqttRetainMessage} (h : m ∈ s.messages)
    (h' : m' ∈ s.messages) (heq : m.topic = m'.topic) : m = m' := by
  rw [mem_messages_iff] at h h'
  rw [heq] at h
  exact Option.some.inj (h.symm.trans h')

/-- The scan selects a topic iff it has the words of the filter. -/
lemma selects_iff {topic filter : Str} (ht : checkPublishTopic topic = true)
    (hf : checkSubscribeTopic filter = true) :
    rmatch topic filter = 1 ↔ words topic = words filter := by
  obtain ⟨hne, hpound, hplus⟩ := checkPublishTopic_iff.1 ht
  obtain ⟨h1, h2⟩ := literal_words hne hpound hplus
  rw [rmatch_eq, topicMatch_eq_one_iff (ne_nil_of_check hf)
    (check_of_not_wildcard hne hpound hplus), accepts_literal h1 h2, eq_comm]

/-- What the scan selects, the filter matches. -/
lemma topicMatch_of_selects {topic filter : Str} (ht : checkPublishTopic topic = true)
    (hf : checkSubscribeTopic filter = true) (h : words topic = words filter) :
    topicMatch topic filter = 1 := by
  obtain ⟨hne, hpound, hplus⟩ := checkPublishTopic_iff.1 ht
  obtain ⟨h1, h2⟩ := literal_words hne hpound hplus
  rw [topicMatch_eq_one_iff hne hf, ← h]
  exact (accepts_literal h1 h2).2 rfl

/-! ### Live routing -/

open RouterCache in
/-- A live publish reaches a filter that is the published topic, and no other filter than those
that match it. -/
lemma RoutedTo.eq_or_match {topic filter : Str} (ht : checkPublishTopic topic = true)
    (hf : checkSubscribeTopic filter = true) (h : RoutedTo topic filter) :
    filter = topic ∨ isWildcard filter = true ∧ topicMatch topic filter = 1 := by
  obtain ⟨hne, hpound, -⟩ := checkPublishTopic_iff.1 ht
  -- one client subscribes to the filter, and nothing else is stored
  set router : MqttRouter := ⟨0, ['c'], filter, 0⟩ with hrouter
  have hcache := run_save_routerCache router (by simp [hrouter]) (ne_nil_of_check hf)
  have hget : (run [.save router]).routerCache.get router.key = some router := by
    rw [hcache, PlainMap.get_put_self]
  have hmem := h [.save router] (by simpa [Op.Accepted] using hf) router
    ((PlainMap.mem_values_iff _ _).2 ⟨_, hget⟩) rfl
  rw [(consistent_run _).mem_getMatches_stored_iff hget hne hpound] at hmem
  refine hmem.imp_right fun hword => ?_
  obtain ⟨hst, -, hacc⟩ := hword
  refine ⟨?_, (topicMatch_eq_one_iff hne hf).2 hacc⟩
  obtain ⟨-, key, router', hget', hw, hpre⟩ := storedPath_iff.1 hst
  rw [hcache, PlainMap.get_put] at hget'
  split_ifs at hget' with hkey
  · cases hget'
    exact hw
  · simp at hget'

lemma routedTo_self (topic : Str) (ht : topic ≠ []) : RoutedTo topic topic := by
  intro ops _ router _ heq
  rw [heq, RouterCache.getMatches, if_neg (by simp [ht]), Option.getD_some]
  exact mem_toFinset.2 mem_cons_self

/-! ### Exactness -/

/-- **When the retained lookup is exact.**  For every content of the cache and every accepted
filter, `get` returns what a live publish would have routed to the filter iff the filter matches
no stored topic but itself. -/
theorem get_exact_iff (s : RetainCache) (hs : s.Accepted) (upgradeQos : Bool) (filter : Str)
    (hf : checkSubscribeTopic filter = true) (qos : ℤ) :
    s.RetainedExact upgradeQos filter qos ↔
      ∀ retain ∈ s.messages, topicMatch retain.topic filter = 1 → retain.topic = filter := by
  have hget : s.get upgradeQos filter qos =
      some ((s.messages.filter fun retain => rmatch retain.topic filter = 1).map
        (withQos upgradeQos qos)) := if_neg (by simp [ne_nil_of_check hf])
  constructor
  · rintro ⟨⟨result, hresult, hperm⟩, hlive⟩ retain hmem hmatch
    obtain rfl := Option.some.inj (hget.symm.trans hresult)
    -- the message is returned, so the words of its topic are those of the filter
    have hin : withQos upgradeQos qos retain ∈
        (s.messages.filter fun retain => rmatch retain.topic filter = 1).map
          (withQos upgradeQos qos) :=
      hperm.mem_iff.2 (mem_map_of_mem (mem_filter.2 ⟨hmem, by simpa using hmatch⟩))
    obtain ⟨other, hother, heq⟩ := mem_map.1 hin
    obtain ⟨hmem', hr⟩ := mem_filter.1 hother
    have htopic : other.topic = retain.topic :=
      show (withQos upgradeQos qos other).topic = _ by rw [heq]; rfl
    obtain rfl := s.eq_of_topic_eq hmem' hmem htopic
    have hwords := (selects_iff (hs _ hmem) hf).1 (by simpa using hr)
    -- a filter with these words has no wildcard and is routed to under its own name only
    rcases RoutedTo.eq_or_match (hs _ hmem) hf ((hlive _ hmem).1 hmatch) with heq | ⟨hw, -⟩
    · exact heq.symm
    · exfalso
      obtain ⟨hne, hpound, hplus⟩ := checkPublishTopic_iff.1 (hs _ hmem)
      rw [isWildcard_iff] at hw
      rcases hw with hc | hc
      · obtain ⟨w, hw, hcw⟩ := (mem_iff_exists_words (ne_nil_of_check hf) (by decide)).1 hc
        exact hpound ((mem_iff_exists_words hne (by decide)).2 ⟨w, hwords ▸ hw, hcw⟩)
      · obtain ⟨w, hw, hcw⟩ := (mem_iff_exists_words (ne_nil_of_check hf) (by decide)).1 hc
        exact hplus ((mem_iff_exists_words hne (by decide)).2 ⟨w, hwords ▸ hw, hcw⟩)
  · intro hself
    refine ⟨⟨_, hget, ?_⟩, fun retain hmem => ⟨fun hmatch => ?_, fun hrouted => ?_⟩⟩
    · have hsel : ∀ retain ∈ s.messages, decide (rmatch retain.topic filter = 1) =
          decide (topicMatch retain.topic filter = 1) := by
        intro retain hmem
        rw [decide_eq_decide, selects_iff (hs _ hmem) hf]
        exact ⟨topicMatch_of_selects (hs _ hmem) hf, fun h => by rw [hself _ hmem h]⟩
      rw [filter_congr hsel]
    · rw [hself _ hmem hmatch]
      exact routedTo_self filter (ne_nil_of_check hf)
    · rcases RoutedTo.eq_or_match (hs _ hmem) hf hrouted with heq | ⟨-, hmatch⟩
      · exact topicMatch_of_selects (hs _ hmem) hf (by rw [heq])
      · exact hmatch

/-- The retained message of the examples below. -/
def retained (topic : Str) : MqttRetainMessage :=
  { topic := topic, payload := [], qos := 1, dup := false }

/-- A subscription to the very topic of the only retained message gets it. -/
theorem get_exact_literal :
    (empty.save 10 (retained "a/b".toList)).RetainedExact false "a/b".toList 1 :=
  (get_exact_iff _ (by decide) false "a/b".toList (by decide) 1).2 (by decide)

/-- The retained message on `a/b` is not returned for the filter `a/+`, which matches it. -/
theorem get_not_exact :
    ¬∀ s : RetainCache, s.Accepted → ∀ (upgradeQos : Bool) (filter : Str),
      checkSubscribeTopic filter = true → ∀ qos : ℤ, s.RetainedExact upgradeQos filter qos := by
  intro h
  obtain ⟨⟨result, hresult, hperm⟩, -⟩ := h (empty.save 10 (retained "a/b".toList)) (by decide)
    false "a/+".toList (by decide) 1
  have hnone : (empty.save 10 (retained "a/b".toList)).get false "a/+".toList 1 = some [] := by
    decide
  obtain rfl := Option.some.inj (hnone.symm.trans hresult)
  exact absurd hperm.length_eq (by decide)

end RetainCache

end Stuart
