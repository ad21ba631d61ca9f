/-
When a granted filter reaches no denied topic.

The access control list is asked about the filter of a subscription as if it were a topic, so a
filter that no denying rule matches is granted although topics that it covers are denied.  Whether
that happens for a filter is decided by finitely many topics, the samples of the filter and the
topics of the rules of the client: `contained_iff`.
-/
import Stuart.Verticles.Access
import Stuart.Functions.SampleTopics

namespace Stuart

open List Lib TopicUtil TopicMatchFunction AuthUtil LocalAuthService SampleTopics

namespace Verticle

/-- The first rule that matches the topic lets the client subscribe to it, or there is none. -/
def Subscribable (s : AclCache) (client : MqttClient) (topic : Str) : Prop :=
  ∀ acl ∈ firstMatch s client topic, ¬denies .sub acl

instance (s : AclCache) (client : MqttClient) (topic : Str) :
    Decidable (Subscribable s client topic) :=
  inferInstanceAs (Decidable (∀ acl ∈ firstMatch s client topic, _))

/-- A subscription that is granted covers only topics that the client may subscribe to. -/
def Contained (v : Verticle) (id : ℕ) (client : MqttClient) (subs : List MqttTopicSubscription)
    (sub : MqttTopicSubscription) : Prop :=
  v.Grants id client subs sub → ∀ topic qos, checkPublishTopic topic = true →
    topicMatch topic sub.topicName = 1 → v.Grants id client [⟨topic, qos⟩] ⟨topic, qos⟩

/-- The topics to try for a filter: those built of the levels of the filter and of the rules of
the client. -/
def samples (s : AclCache) (client : MqttClient) (filter : Str) : List Str :=
  sampleTopics (filter :: (s.get client).map MqttAcl.topic)

/-- Every sample that the filter matches is one the client may subscribe to. -/
def SamplesSubscribable (s : AclCache) (client : MqttClient) (filter : Str) : Prop :=
  ∀ topic ∈ samples s client filter, checkPublishTopic topic = true →
    topicMatch topic filter = 1 → Subscribable s client topic

instance (s : AclCache) (client : MqttClient) (filter : Str) :
    Decidable (SamplesSubscribable s client filter) :=
  inferInstanceAs (Decidable (∀ topic ∈ samples s client filter, _))

/-- Topics with the same matches get the same rule. -/
lemma firstMatch_congr {s : AclCache} {client : MqttClient} {t t' : Str} {ps : List Str}
    (h : SameMatches ps t t') (hps : ∀ acl ∈ s.get client, acl.topic ∈ ps) :
    firstMatch s client t = firstMatch s client t' := by
  simp only [firstMatch]
  have hcongr : ∀ acls : List MqttAcl, (∀ acl ∈ acls, acl.topic ∈ ps) →
      (acls.find? fun acl => isMatch t acl.topic) = acls.find? fun acl => isMatch t' acl.topic := by
    intro acls hacls
    induction acls with
    | nil => rfl
    | cons acl acls ih =>
        rw [find?_cons, find?_cons, (h acl.topic (hacls acl mem_cons_self)).2,
          ih fun a ha => hacls a (mem_cons_of_mem acl ha)]
  exact hcongr _ hps

/-- The samples decide for all topics. -/
lemma samplesSubscribable_iff (s : AclCache) (client : MqttClient) (filter : Str) :
    SamplesSubscribable s client filter ↔ ∀ topic, checkPublishTopic topic = true →
      topicMatch topic filter = 1 → Subscribable s client topic := by
  constructor
  · intro h topic htopic hmatch
    obtain ⟨t, ht, hcheck, hsame⟩ :=
      exists_sample (filter :: (s.get client).map MqttAcl.topic) htopic
    have hfirst : firstMatch s client topic = firstMatch s client t :=
      firstMatch_congr hsame fun acl hacl => mem_cons_of_mem _ (mem_map_of_mem hacl)
    rw [(hsame filter mem_cons_self).1] at hmatch
    simp only [Subscribable]
    rw [hfirst]
    exact h t ht hcheck hmatch
  · intro h topic _ hcheck hmatch
    exact h topic hcheck hmatch

variable {v : Verticle} {id : ℕ} {client : MqttClient}

/-- A subscription covers only topics that the client may subscribe to iff it is not granted, or
the samples that its filter matches are such topics. -/
theorem contained_iff (v : Verticle) (s : AclCache) (id : ℕ) (client : MqttClient)
    (hclient : v.client id = some client)
    (hauth : v.authService = some (LocalAuthService.service s))
    (subs : List MqttTopicSubscription) (sub : MqttTopicSubscription) (hsub : sub ∈ subs) :
    v.Contained id client subs sub ↔
      (v.registered client = true → checkSubscribeTopic sub.topicName = true →
        Subscribable s client sub.topicName → SamplesSubscribable s client sub.topicName) := by
  have hdirect : ∀ topic qos, checkPublishTopic topic = true →
      (v.Grants id client [⟨topic, qos⟩] ⟨topic, qos⟩ ↔
        v.registered client = true ∧ Subscribable s client topic) := by
    intro topic qos hcheck
    obtain ⟨hne, hpound, hplus⟩ := checkPublishTopic_iff.1 hcheck
    rw [grants_iff hclient hauth mem_cons_self]
    simp [check_of_not_wildcard hne hpound hplus, Subscribable]
  simp only [Contained]
  rw [grants_iff hclient hauth hsub, samplesSubscribable_iff]
  constructor
  · intro h hreg hcheck hallowed topic htopic hmatch
    have hgrants := h ⟨hreg, hcheck, hallowed⟩ topic .atMostOnce htopic hmatch
    exact ((hdirect topic .atMostOnce htopic).1 hgrants).2
  · rintro h ⟨hreg, hcheck, hallowed⟩ topic qos htopic hmatch
    exact (hdirect topic qos htopic).2 ⟨hreg, h hreg hcheck hallowed topic htopic hmatch⟩

/-- A client is connected to a verticle with the rules of a new broker. -/
def installed : Verticle :=
  (initial ⟨true, false, 1024, 1024⟩
    (some (LocalAuthService.service AclCache.empty.init))).handleAccept ⟨sampleClient, none⟩ true

/-- The filter of all topics but one-level ones, and a topic of the broker's own statistics. -/
def plusPound : MqttTopicSubscription := ⟨['+', '/', '#'], .atMostOnce⟩

def sysTopic : Str := ['$', 'S', 'Y', 'S', '/', 'x']

theorem contained_iff_installed :
    installed.Contained 0 sampleClient [plusPound] plusPound ↔
      (installed.registered sampleClient = true → checkSubscribeTopic plusPound.topicName = true →
        Subscribable AclCache.empty.init sampleClient plusPound.topicName →
          SamplesSubscribable AclCache.empty.init sampleClient plusPound.topicName) :=
  contained_iff installed AclCache.empty.init 0 sampleClient rfl rfl [plusPound] plusPound (by simp)

/-- With the rules of a new broker, the filter is granted and covers a denied topic. -/
theorem not_contained :
    ¬∀ (v : Verticle) (s : AclCache) (id : ℕ) (client : MqttClient)
      (subs : List MqttTopicSubscription) (sub : MqttTopicSubscription), sub ∈ subs →
      v.client id = some client → v.authService = some (LocalAuthService.service s) →
      v.Contained id client subs sub := by
  intro h
  have hgranted : installed.Grants 0 sampleClient [plusPound] plusPound :=
    (grants_iff (s := AclCache.empty.init) rfl rfl (by simp)).2 ⟨by rfl, by decide, by decide⟩
  have hdenied := h installed AclCache.empty.init 0 sampleClient [plusPound] plusPound (by simp)
    rfl rfl hgranted sysTopic .atMostOnce (by decide) (by decide)
  rw [grants_iff (s := AclCache.empty.init) rfl rfl (by simp)] at hdenied
  exact absurd hdenied.2.2 (by decide)

end Verticle

end Stuart
