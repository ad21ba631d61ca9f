/-
What a client may publish and subscribe to, and the default of the access control list.

`routes_iff` and `grants_iff` say when `handlePublish` passes a message on and when
`handleSubscribe` makes a subscription.  Both ask `canAccess` with the object that the auth
service has filled in, never with null, so the branch of `canAccess` for a request that no rule
matches is not reached: such a request is granted, whatever `isAuthAclAllowNomatch` says
(`nomatch_iff`).
-/
import Stuart.Verticles.MqttVerticle
import Stuart.Services.Lifecycle

namespace Stuart

open List Lib TopicUtil AuthUtil

namespace Broker

variable {b : Broker} {clientId : Str}

/-- A method of the registered wrapper leaves a wrapper registered. -/
lemma isSome_getWrapper_onRegistered (h : (b.getWrapper clientId).isSome = true)
    (f : ∀ {kind}, SessionWrapper kind → SessionWrapper kind) :
    ((b.onRegistered clientId f).getWrapper clientId).isSome = true := by
  simp only [onRegistered]
  cases hget : b.getWrapper clientId with
  | none => simp [hget] at h
  | some w =>
      have hv := valid_of_getWrapper hget
      dsimp only
      split
      · rw [putWrapper_eq hv, getWrapper_eq hv]
        simp
      · rw [hget]
        rfl

lemma getWrapper_subscribeTopic (topic : Str) (qos : ℤ) :
    (b.subscribeTopic clientId topic qos).getWrapper clientId = b.getWrapper clientId := by
  simp only [subscribeTopic]
  split <;> rfl

end Broker

namespace Verticle

/-- The session wrapper of the client is registered. -/
def registered (v : Verticle) (client : MqttClient) : Bool :=
  (v.broker.getWrapper client.clientId).isSome

/-- What a handler adds to the log. -/
def added (v v' : Verticle) : List Event := v'.log.drop v.log.length

/-- `handlePublish` passes the message on: to the routing, or with QoS 2 to the await store, from
where it is routed on its PUBREL. -/
def Routes (v : Verticle) (id : ℕ) (client : MqttClient) (message : MqttPublishMessage) : Prop :=
  .routed (.publish client message) ∈ v.added (v.handlePublish id message) ∨
    .received client message ∈ v.added (v.handlePublish id message)

/-- `handleSubscribe` grants a subscription. -/
def Grants (v : Verticle) (id : ℕ) (client : MqttClient) (subs : List MqttTopicSubscription)
    (sub : MqttTopicSubscription) : Prop :=
  .subscribed client sub.topicName sub.qualityOfService.value ∈
    v.added (v.handleSubscribe id subs).2

lemma added_eq {v v' : Verticle} {events : List Event} (h : v'.log = v.log ++ events) :
    v.added v' = events := by
  rw [added, h, drop_left]

variable {v : Verticle} {id : ℕ} {client : MqttClient}

/-! ### Publishing -/

/-- A message that is let through. -/
lemma log_handlePublish (hclient : v.client id = some client) {message : MqttPublishMessage}
    (hcheck : checkPublishTopic message.topicName = true)
    (hacc : canAccess v.config.isAuthAclAllowNomatch .pub
      (some (v.checkResult client message.topicName)) = true) :
    (v.handlePublish id message).log = v.log ++ (.allowed client (.publish message) ::
      if message.qosLevel ≠ .exactlyOnce then [.routed (.publish client message)]
      else if v.registered client then [.received client message] else []) := by
  simp only [handlePublish]
  rw [hclient]
  dsimp only
  rw [if_neg (by simp [hcheck]), if_neg (by simp [hacc])]
  by_cases hq : message.qosLevel = .exactlyOnce
  · rw [if_pos hq, if_neg (by simp [hq])]
    cases hget : v.broker.getWrapper client.clientId with
    | none => simp [registered, hget, note]
    | some w => simp [registered, hget, note]
  · rw [if_neg hq, if_pos hq]
    simp

/-- A message that is refused leaves everything as it is. -/
lemma handlePublish_refused (hclient : v.client id = some client) {message : MqttPublishMessage}
    (h : ¬(checkPublishTopic message.topicName = true ∧ canAccess v.config.isAuthAclAllowNomatch
      .pub (some (v.checkResult client message.topicName)) = true)) :
    v.handlePublish id message = v := by
  simp only [handlePublish]
  rw [hclient]
  dsimp only
  by_cases hcheck : checkPublishTopic message.topicName = true
  · rw [if_neg (by simp [hcheck]), if_pos (by simpa [hcheck] using h)]
  · rw [if_pos (by simpa using hcheck)]

/-- `handlePublish` notes a message as allowed iff it has checked its topic and `canAccess` has
returned true for the answer of the auth service. -/
lemma allowed_iff (hclient : v.client id = some client) (message : MqttPublishMessage) :
    .allowed client (.publish message) ∈ v.added (v.handlePublish id message) ↔
      checkPublishTopic message.topicName = true ∧ canAccess v.config.isAuthAclAllowNomatch .pub
        (some (v.checkResult client message.topicName)) = true := by
  by_cases h : checkPublishTopic message.topicName = true ∧
      canAccess v.config.isAuthAclAllowNomatch .pub
        (some (v.checkResult client message.topicName)) = true
  · rw [added_eq (log_handlePublish hclient h.1 h.2)]
    exact iff_of_true mem_cons_self h
  · rw [handlePublish_refused hclient h, added_eq (append_nil _).symm]
    exact iff_of_false (by simp) h

/-- A message is passed on iff its topic is a valid one to publish to, the access is granted, and
for QoS 2 there is a session to keep it. -/
lemma routes_iff (hclient : v.client id = some client) (message : MqttPublishMessage) :
    v.Routes id client message ↔ checkPublishTopic message.topicName = true ∧
      canAccess v.config.isAuthAclAllowNomatch .pub
        (some (v.checkResult client message.topicName)) = true ∧
      (message.qosLevel = .exactlyOnce → v.registered client = true) := by
  by_cases h : checkPublishTopic message.topicName = true ∧
      canAccess v.config.isAuthAclAllowNomatch .pub
        (some (v.checkResult client message.topicName)) = true
  · rw [Routes, added_eq (log_handlePublish hclient h.1 h.2)]
    by_cases hq : message.qosLevel = .exactlyOnce
    · by_cases hreg : v.registered client = true <;> simp [h, hq, hreg]
    · simp [h, hq]
  · rw [Routes, handlePublish_refused hclient h, added_eq (append_nil _).symm]
    exact iff_of_false (by simp) fun hand => h ⟨hand.1, hand.2.1⟩

/-! ### Subscribing -/

/-- The loop notes the granted subscriptions, if there is a wrapper to make them. -/
lemma log_subscribeAll (client : MqttClient) (v : Verticle) (results : List MqttAuthority) :
    ∃ events, (subscribeAll client v results).2.log = v.log ++ events ∧
      (∀ event ∈ events, ∃ topic qos, event = .subscribed client topic qos) ∧
      ∀ topic qos, .subscribed client topic qos ∈ events ↔ v.registered client = true ∧
        ∃ result ∈ results, result.topic = topic ∧ result.qos = qos ∧
          granted v.config.isAuthAclAllowNomatch result = true := by
  induction results generalizing v with
  | nil => exact ⟨[], by simp [subscribeAll], by simp, by simp⟩
  | cons result results ih =>
      simp only [subscribeAll]
      by_cases hg : granted v.config.isAuthAclAllowNomatch result = true
      · rw [if_pos hg]
        cases hget : v.broker.getWrapper client.clientId with
        -- without a wrapper the loop ends at the first subscription it would make
        | none => exact ⟨[], by simp, by simp, by simp [registered, hget]⟩
        | some w =>
            dsimp only
            set v₁ := ((v.note (.subscribed client result.topic result.qos)).withBroker
              (v.broker.subscribeTopic client.clientId result.topic
                result.qos)).handlePublishRetainMessage client.clientId result.topic result.qos
              with hv₁
            have hreg : v.registered client = true := by simp [registered, hget]
            -- the subscription and its retained messages leave a wrapper registered
            have hreg₁ : v₁.registered client = true := by
              have hsub : ((v.broker.subscribeTopic client.clientId result.topic
                  result.qos).getWrapper client.clientId).isSome = true := by
                rw [Broker.getWrapper_subscribeTopic]
                exact hreg
              rw [hv₁]
              simp only [handlePublishRetainMessage, registered]
              split_ifs
              · exact hsub
              · exact Broker.isSome_getWrapper_onRegistered hsub _
            have hconfig : v₁.config = v.config := by
              rw [hv₁, config_handlePublishRetainMessage]
              rfl
            obtain ⟨events, hlog, hall, hmem⟩ := ih v₁
            refine ⟨.subscribed client result.topic result.qos :: events, ?_, ?_,
              fun topic qos => ?_⟩
            · rw [hlog, hv₁, log_handlePublishRetainMessage]
              simp
            · rintro event (_ | ⟨_, hevent⟩)
              · exact ⟨_, _, rfl⟩
              · exact hall event hevent
            · rw [mem_cons, hmem topic qos, hconfig]
              simp only [hreg, hreg₁, true_and, Event.subscribed.injEq, mem_cons]
              constructor
              · rintro (⟨rfl, rfl⟩ | ⟨r, hr, h⟩)
                · exact ⟨result, Or.inl rfl, rfl, rfl, hg⟩
                · exact ⟨r, Or.inr hr, h⟩
              · rintro ⟨r, rfl | hr, h⟩
                · exact Or.inl ⟨h.1.symm, h.2.1.symm⟩
                · exact Or.inr ⟨r, hr, h⟩
      · rw [if_neg hg]
        obtain ⟨events, hlog, hall, hmem⟩ := ih v
        refine ⟨events, hlog, hall, fun topic qos => ?_⟩
        rw [hmem topic qos]
        simp [hg]

/-- The answer that the local service gives to one request of a SUBSCRIBE. -/
lemma mem_checkResults {s : AclCache} (hauth : v.authService = some (LocalAuthService.service s))
    {subs : List MqttTopicSubscription} {result : MqttAuthority} :
    result ∈ v.checkResults client subs ↔ ∃ sub ∈ subs,
      (checkSubscribeTopic sub.topicName = true ∧ result = LocalAuthService.setAuthority
        ((MqttAuthority.create sub.topicName).setQos sub.qualityOfService.value) (s.get client)) ∨
      (checkSubscribeTopic sub.topicName = false ∧ result =
        (MqttAuthority.create sub.topicName).setQos MqttQoS.FAILURE) := by
  have hanswer : ∀ sub : MqttTopicSubscription,
      LocalAuthService.accessOne s client ((MqttAuthority.create sub.topicName).setQos
        (if checkSubscribeTopic sub.topicName then sub.qualityOfService.value
          else MqttQoS.FAILURE)) =
      if checkSubscribeTopic sub.topicName then LocalAuthService.setAuthority
        ((MqttAuthority.create sub.topicName).setQos sub.qualityOfService.value) (s.get client)
      else (MqttAuthority.create sub.topicName).setQos MqttQoS.FAILURE := by
    intro sub
    by_cases hcheck : checkSubscribeTopic sub.topicName = true
    · rw [if_pos hcheck, if_pos hcheck]
      exact if_neg (MqttQoS.value_ne_failure sub.qualityOfService)
    · rw [if_neg hcheck, if_neg hcheck]
      exact if_pos rfl
  simp only [checkResults]
  rw [hauth]
  dsimp only [LocalAuthService.service]
  split_ifs with hcount
  · rw [LocalAuthService.accessList, authorities, map_map, mem_map]
    refine exists_congr fun sub => and_congr_right fun _ => ?_
    rw [Function.comp_apply, hanswer sub]
    by_cases hcheck : checkSubscribeTopic sub.topicName = true <;> simp [hcheck, eq_comm]
  · -- no filter is accepted, so every request has the failure code
    have hnone : ∀ sub ∈ subs, checkSubscribeTopic sub.topicName = false := by
      intro sub hsub
      by_contra hcheck
      exact hcount (countP_pos_iff.2 ⟨sub, hsub, by simpa using hcheck⟩)
    rw [authorities, mem_map]
    refine exists_congr fun sub => and_congr_right fun hsub => ?_
    simp [hnone sub hsub, eq_comm]

/-- A subscription is granted iff its filter is an accepted one, the first rule that matches the
filter does not deny, and there is a session to make it. -/
lemma grants_iff (hclient : v.client id = some client) {s : AclCache}
    (hauth : v.authService = some (LocalAuthService.service s)) {subs : List MqttTopicSubscription}
    {sub : MqttTopicSubscription} (hsub : sub ∈ subs) :
    v.Grants id client subs sub ↔ v.registered client = true ∧
      checkSubscribeTopic sub.topicName = true ∧
      ∀ acl ∈ LocalAuthService.firstMatch s client sub.topicName,
        ¬LocalAuthService.denies .sub acl := by
  have hhandle : v.handleSubscribe id subs =
      subscribeAll client v (v.checkResults client subs) := by
    simp only [handleSubscribe]
    rw [hclient]
  obtain ⟨events, hlog, -, hmem⟩ := log_subscribeAll client v (v.checkResults client subs)
  rw [Grants, hhandle, added_eq hlog, hmem]
  refine and_congr_right fun _ => ⟨?_, fun ⟨hcheck, hacl⟩ => ?_⟩
  -- the answer may be that to another subscription with the same filter
  · rintro ⟨result, hresult, htopic, hqos, hg⟩
    obtain ⟨sub', -, ⟨hcheck, rfl⟩ | ⟨-, rfl⟩⟩ := (mem_checkResults hauth).1 hresult
    · have hname : sub'.topicName = sub.topicName := by simpa using htopic
      simp only [granted, Bool.and_eq_true] at hg
      refine ⟨hname ▸ hcheck, ?_⟩
      rw [← hname]
      exact (LocalAuthService.canAccess_setAuthority rfl _ (Or.inl rfl)).1 hg.2
    · exact absurd hqos.symm (MqttQoS.value_ne_failure _)
  · refine ⟨_, (mem_checkResults hauth).2 ⟨sub, hsub, Or.inl ⟨hcheck, rfl⟩⟩, by simp, by simp, ?_⟩
    simp only [granted, Bool.and_eq_true]
    refine ⟨?_, (LocalAuthService.canAccess_setAuthority rfl _ (Or.inl rfl)).2 hacl⟩
    simpa using MqttQoS.value_ne_failure sub.qualityOfService

/-! ### The default -/

/-- No rule that targets the client matches the topic. -/
def NoMatch (s : AclCache) (client : MqttClient) (topic : Str) : Prop :=
  ∀ acl ∈ s.cache.values, LocalAuthService.applies client topic acl = false

instance (s : AclCache) (client : MqttClient) (topic : Str) : Decidable (NoMatch s client topic) :=
  inferInstanceAs (Decidable (∀ acl ∈ s.cache.values, _))

/-- A message that no rule matches is passed on as if there were no access control list. -/
lemma routes_of_noMatch (hclient : v.client id = some client) {s : AclCache}
    (hauth : v.authService = some (LocalAuthService.service s)) {message : MqttPublishMessage}
    (hno : NoMatch s client message.topicName) :
    v.Routes id client message ↔ checkPublishTopic message.topicName = true ∧
      (message.qosLevel = .exactlyOnce → v.registered client = true) := by
  have hacc : canAccess v.config.isAuthAclAllowNomatch .pub
      (some (v.checkResult client message.topicName)) = true := by
    simp only [checkResult]
    rw [hauth]
    refine (LocalAuthService.canAccess_access s client _ _ (Or.inr rfl)).2 fun acl hacl => ?_
    rw [LocalAuthService.firstMatch_eq_none_iff.2 hno] at hacl
    exact absurd hacl (by simp)
  rw [routes_iff hclient message]
  simp [hacc]

/-- A subscription to a filter that no rule matches is granted as if there were no access control
list. -/
lemma grants_of_noMatch (hclient : v.client id = some client) {s : AclCache}
    (hauth : v.authService = some (LocalAuthService.service s)) {subs : List MqttTopicSubscription}
    {sub : MqttTopicSubscription} (hsub : sub ∈ subs) (hno : NoMatch s client sub.topicName) :
    v.Grants id client subs sub ↔
      checkSubscribeTopic sub.topicName = true ∧ v.registered client = true := by
  rw [grants_iff hclient hauth hsub, LocalAuthService.firstMatch_eq_none_iff.2 hno]
  simp [and_comm]

/-- For a topic that no rule matches, the flag `isAuthAclAllowNomatch` decides a PUBLISH iff it
agrees with what decides it without access control: a valid topic, and for QoS 2 a session; and
likewise for a subscription, also beside others in one SUBSCRIBE. -/
theorem nomatch_iff (v : Verticle) (s : AclCache) (id : ℕ) (client : MqttClient)
    (hclient : v.client id = some client)
    (hauth : v.authService = some (LocalAuthService.service s)) :
    (∀ message, NoMatch s client message.topicName →
      ((v.Routes id client message ↔ v.config.isAuthAclAllowNomatch = true) ↔
        (v.config.isAuthAclAllowNomatch = true ↔ checkPublishTopic message.topicName = true ∧
          (message.qosLevel = .exactlyOnce → v.registered client = true)))) ∧
    ∀ subs, ∀ sub ∈ subs, NoMatch s client sub.topicName →
      ((v.Grants id client subs sub ↔ v.config.isAuthAclAllowNomatch = true) ↔
        (v.config.isAuthAclAllowNomatch = true ↔ checkSubscribeTopic sub.topicName = true ∧
          v.registered client = true)) := by
  constructor
  · intro message hno
    rw [routes_of_noMatch hclient hauth hno]
    exact Iff.comm
  · intro subs sub hsub hno
    rw [grants_of_noMatch hclient hauth hsub hno]
    exact Iff.comm

/-- A new verticle. -/
def initial (config : MqttConfig) (authService : Option AuthService) : Verticle :=
  ⟨config, authService, Broker.initial sampleConfig 1, .empty, ∅, [], []⟩

/-- A client is connected to a verticle that refuses what no rule matches, and there is no
rule. -/
def refusing : Verticle :=
  (initial ⟨false, false, 1024, 1024⟩ (some (LocalAuthService.service .empty))).handleAccept
    ⟨LocalAuthService.sampleClient, none⟩ true

theorem nomatch_iff_refusing :
    (∀ message, NoMatch .empty LocalAuthService.sampleClient message.topicName →
      ((refusing.Routes 0 LocalAuthService.sampleClient message ↔
          refusing.config.isAuthAclAllowNomatch = true) ↔
        (refusing.config.isAuthAclAllowNomatch = true ↔
          checkPublishTopic message.topicName = true ∧
          (message.qosLevel = .exactlyOnce →
            refusing.registered LocalAuthService.sampleClient = true)))) ∧
    ∀ subs, ∀ sub ∈ subs, NoMatch .empty LocalAuthService.sampleClient sub.topicName →
      ((refusing.Grants 0 LocalAuthService.sampleClient subs sub ↔
          refusing.config.isAuthAclAllowNomatch = true) ↔
        (refusing.config.isAuthAclAllowNomatch = true ↔
          checkSubscribeTopic sub.topicName = true ∧
          refusing.registered LocalAuthService.sampleClient = true)) :=
  nomatch_iff refusing .empty 0 LocalAuthService.sampleClient rfl rfl

/-- A message to a valid topic is routed although no rule matches it and the configuration refuses
such messages. -/
theorem not_nomatch :
    ¬∀ (v : Verticle) (s : AclCache) (id : ℕ) (client : MqttClient) (message : MqttPublishMessage),
      v.client id = some client → v.authService = some (LocalAuthService.service s) →
      checkPublishTopic message.topicName = true → NoMatch s client message.topicName →
      (v.Routes id client message ↔ v.config.isAuthAclAllowNomatch = true) := by
  intro h
  have hroutes := h refusing .empty 0 LocalAuthService.sampleClient
    ⟨['a'], 0, [], .atMostOnce, false, false⟩ rfl rfl (by decide)
    (by simp [NoMatch, AclCache.empty])
  rw [routes_of_noMatch (s := .empty) rfl rfl (by simp [NoMatch, AclCache.empty])] at hroutes
  exact absurd (hroutes.1 ⟨by decide, by simp⟩) (by decide)

end Verticle

end Stuart
