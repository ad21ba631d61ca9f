/-
The codes of a SUBACK, and the subscriptions that are stored.

`handleSubscribe` fetches the wrapper of the client once and does not look whether there is one.
The loop over the answers adds the code of a granted filter before it subscribes, so without a
wrapper the exception of the first granted filter ends the loop, and the SUBACK goes out with the
codes up to there.  The client has no wrapper while a takeover is past its locked section.  So the
SUBACK and the routers are right iff there is a wrapper, or no filter is granted, or the only one
that is granted is the last one and stored already with this QoS (`subAckExact_iff`).
-/
import Stuart.Services.Openings
import Stuart.Verticles.Authorised

namespace Stuart

open List Lib TopicUtil AuthUtil

/-- The service answers a list of requests with these requests, filled in.  `LocalAuthServiceImpl`
does, and so does each of the other services when it calls the handler at all
(`Stuart.Services.BackendCallbacks`). -/
def AuthService.Fills (service : AuthService) : Prop :=
  ∀ client auths, Forall₂ (fun auth answer : MqttAuthority =>
    answer.topic = auth.topic ∧ answer.qos = auth.qos) auths (service.accessList client auths)

lemma LocalAuthService.fills_service (s : AclCache) : (LocalAuthService.service s).Fills := by
  intro client auths
  rw [show (LocalAuthService.service s).accessList client auths =
    auths.map (LocalAuthService.accessOne s client) from rfl, forall₂_map_right_iff, forall₂_same]
  intro auth _
  simp only [LocalAuthService.accessOne]
  split_ifs
  · exact ⟨rfl, rfl⟩
  · exact ⟨LocalAuthService.setAuthority_topic _ _, LocalAuthService.setAuthority_qos _ _⟩

namespace Verticle

/-- A filter of a SUBSCRIBE with the answer to its request. -/
abbrev Request := MqttTopicSubscription × MqttAuthority

/-- The filters of a SUBSCRIBE with the answers of the auth service. -/
def requests (v : Verticle) (client : MqttClient) (subs : List MqttTopicSubscription) :
    List Request := subs.zip (v.checkResults client subs)

/-- The filter is valid, and the access is not denied. -/
def permitted (v : Verticle) (request : Request) : Bool :=
  checkSubscribeTopic request.1.topicName &&
    canAccess v.config.isAuthAclAllowNomatch .sub (some request.2)

/-- The failure code for a filter that is invalid or denied, and the requested QoS otherwise. -/
def code (v : Verticle) (request : Request) : ℤ :=
  if v.permitted request then request.1.qualityOfService.value else MqttQoS.FAILURE

/-- The QoS that is stored for a filter of a client. -/
def storedQos (v : Verticle) (clientId topic : Str) : Option ℤ :=
  (v.routerCache.routerOf clientId topic).map MqttRouter.qos

/-- The QoS of the last granted request for a filter. -/
def lastPermitted (v : Verticle) (requests : List Request) (topic : Str) : Option ℤ :=
  (requests.reverse.find? fun request => request.1.topicName == topic && v.permitted request).map
    fun request => request.1.qualityOfService.value

/-- One code for each filter in the order of the request, and the granted filters are stored. -/
structure SubAckExact (v : Verticle) (id : ℕ) (client : MqttClient)
    (subs : List MqttTopicSubscription) : Prop where
  length : (v.handleSubscribe id subs).1.length = subs.length
  codes : (v.handleSubscribe id subs).1 = (v.requests client subs).map v.code
  routers : ∀ topic, (v.handleSubscribe id subs).2.storedQos client.clientId topic =
    (v.lastPermitted (v.requests client subs) topic).or (v.storedQos client.clientId topic)

/-- The loop has a wrapper, or does not ask for it, or only in its last round, for what is stored
already. -/
def Answerable (v : Verticle) (client : MqttClient) (subs : List MqttTopicSubscription) : Prop :=
  v.registered client = true ∨ (∀ request ∈ v.requests client subs, v.permitted request = false) ∨
    ∃ front last, v.requests client subs = front ++ [last] ∧
      (∀ request ∈ front, v.permitted request = false) ∧
      v.storedQos client.clientId last.1.topicName = some last.1.qualityOfService.value

variable {v v' : Verticle} {client : MqttClient} {subs : List MqttTopicSubscription}

/-! ### The answers -/

/-- The answer belongs to the filter. -/
def Answers (request : Request) : Prop :=
  request.2.topic = request.1.topicName ∧ request.2.qos =
    if checkSubscribeTopic request.1.topicName then request.1.qualityOfService.value
    else MqttQoS.FAILURE

lemma forall₂_checkResults (hfills : ∀ service ∈ v.authService, service.Fills) (client : MqttClient)
    (subs : List MqttTopicSubscription) :
    Forall₂ (fun sub answer => Answers (sub, answer)) subs (v.checkResults client subs) := by
  have hown : ∀ subs : List MqttTopicSubscription,
      Forall₂ (fun sub answer => Answers (sub, answer)) subs (authorities subs) := by
    intro subs
    rw [authorities, forall₂_map_right_iff, forall₂_same]
    exact fun sub _ => ⟨rfl, rfl⟩
  simp only [checkResults]
  cases hservice : v.authService with
  | none => exact hown subs
  | some service =>
      dsimp only
      split_ifs
      · have hanswers := hfills service hservice client (authorities subs)
        rw [authorities, forall₂_map_left_iff] at hanswers
        exact hanswers.imp fun sub answer h => ⟨h.1, h.2⟩
      · exact hown subs

lemma requests_spec (hfills : ∀ service ∈ v.authService, service.Fills) (client : MqttClient)
    (subs : List MqttTopicSubscription) :
    (v.requests client subs).map Prod.snd = v.checkResults client subs ∧
      (v.requests client subs).length = subs.length ∧
      ∀ request ∈ v.requests client subs, Answers request := by
  have hall := forall₂_checkResults hfills client subs
  have hlength := hall.length_eq
  refine ⟨map_snd_zip (le_of_eq hlength.symm), ?_, ?_⟩
  · rw [requests, length_zip, ← hlength, Nat.min_self]
  · exact fun request hmem => (forall₂_iff_zip.1 hall).2 hmem

/-- What the handler looks at is what was asked for. -/
lemma granted_eq {request : Request} (h : Answers request) :
    granted v.config.isAuthAclAllowNomatch request.2 = v.permitted request := by
  simp only [granted, permitted]
  rw [h.2]
  by_cases hcheck : checkSubscribeTopic request.1.topicName = true
  · have hne := MqttQoS.value_ne_failure request.1.qualityOfService
    simp [hcheck, hne]
  · simp [hcheck]

lemma qos_of_permitted {request : Request} (h : Answers request)
    (hpermitted : v.permitted request = true) :
    request.2.qos = request.1.qualityOfService.value := by
  simp only [permitted, Bool.and_eq_true] at hpermitted
  rw [h.2, if_pos hpermitted.1]

/-! ### The codes -/

lemma permitted_congr (h : v'.config = v.config) : v'.permitted = v.permitted := by
  funext request
  simp only [permitted, h]

/-- With a wrapper every filter gets its code. -/
lemma codes_of_registered {requests : List Request}
    (hanswers : ∀ request ∈ requests, Answers request) (hreg : v.registered client = true) :
    (subscribeAll client v (requests.map Prod.snd)).1 = requests.map v.code := by
  induction requests generalizing v with
  | nil => rfl
  | cons request requests ih =>
      have hanswer := hanswers request mem_cons_self
      have hrest := fun v hv => @ih v (fun r hr => hanswers r (mem_cons_of_mem _ hr)) hv
      rw [map_cons, map_cons]
      simp only [subscribeAll]
      rw [granted_eq hanswer]
      by_cases hpermitted : v.permitted request = true
      · rw [if_pos hpermitted]
        cases hget : v.broker.getWrapper client.clientId with
        | none => simp [registered, hget] at hreg
        | some w =>
            dsimp only
            set v₁ := ((v.note (.subscribed client request.2.topic request.2.qos)).withBroker
              (v.broker.subscribeTopic client.clientId request.2.topic
                request.2.qos)).handlePublishRetainMessage client.clientId request.2.topic
              request.2.qos with hv₁
            have hconfig : v₁.config = v.config := by
              rw [hv₁, config_handlePublishRetainMessage]
              rfl
            have hreg₁ : v₁.registered client = true := by
              have hsub : ((v.broker.subscribeTopic client.clientId request.2.topic
                  request.2.qos).getWrapper client.clientId).isSome = true := by
                rw [Broker.getWrapper_subscribeTopic, hget]
                rfl
              rw [hv₁]
              simp only [handlePublishRetainMessage, registered]
              split_ifs
              · exact hsub
              · exact Broker.isSome_getWrapper_onRegistered hsub _
            have hcode : v₁.code = v.code := by
              funext r
              simp only [code, permitted_congr hconfig]
            rw [hrest v₁ hreg₁, hcode, code, if_pos hpermitted, qos_of_permitted hanswer hpermitted]
      · rw [if_neg hpermitted]
        dsimp only
        rw [hrest v hreg, code, if_neg hpermitted]

/-- Without a wrapper the loop ends at the first filter that is granted. -/
lemma subscribeAll_of_unregistered (hreg : v.registered client = false) {front back : List Request}
    {request : Request} (hanswers : ∀ r ∈ front ++ request :: back, Answers r)
    (hfront : ∀ r ∈ front, v.permitted r = false) (hpermitted : v.permitted request = true) :
    subscribeAll client v ((front ++ request :: back).map Prod.snd) =
      (front.map v.code ++ [v.code request], v) := by
  have hnone : v.broker.getWrapper client.clientId = none := by
    simpa [registered] using hreg
  induction front with
  | nil =>
      have hanswer := hanswers request mem_cons_self
      rw [nil_append, map_cons]
      simp only [subscribeAll]
      rw [granted_eq hanswer, if_pos hpermitted, hnone]
      simp [code, hpermitted, qos_of_permitted hanswer hpermitted]
  | cons first front ih =>
      have hfirst : ¬v.permitted first = true := by simp [hfront first mem_cons_self]
      have hrest := ih (fun r hr => hanswers r (mem_cons_of_mem _ hr))
        fun r hr => hfront r (mem_cons_of_mem _ hr)
      rw [cons_append, map_cons]
      simp only [subscribeAll]
      rw [granted_eq (hanswers first mem_cons_self), if_neg hfirst, hrest]
      simp [code, hfirst]

/-- If nothing is granted, nothing happens. -/
lemma subscribeAll_of_refused {requests : List Request}
    (hanswers : ∀ request ∈ requests, Answers request)
    (hrefused : ∀ request ∈ requests, v.permitted request = false) :
    subscribeAll client v (requests.map Prod.snd) = (requests.map v.code, v) := by
  induction requests with
  | nil => rfl
  | cons first requests ih =>
      have hfirst : ¬v.permitted first = true := by simp [hrefused first mem_cons_self]
      have hrest := ih (fun r hr => hanswers r (mem_cons_of_mem _ hr))
        fun r hr => hrefused r (mem_cons_of_mem _ hr)
      rw [map_cons]
      simp only [subscribeAll]
      rw [granted_eq (hanswers first mem_cons_self), if_neg hfirst, hrest]
      simp [code, hfirst]

/-! ### The routers -/

lemma lastPermitted_cons (request : Request) (requests : List Request) (topic : Str) :
    v.lastPermitted (request :: requests) topic = (v.lastPermitted requests topic).or
      (if request.1.topicName = topic ∧ v.permitted request = true then
        some request.1.qualityOfService.value else none) := by
  simp only [lastPermitted, reverse_cons, find?_append]
  cases requests.reverse.find? _ with
  | some r => rfl
  | none =>
      simp only [find?_singleton, Option.none_or, Bool.and_eq_true, beq_iff_eq, Option.map_none]
      split_ifs <;> rfl

lemma lastPermitted_of_refused {requests : List Request}
    (h : ∀ request ∈ requests, v.permitted request = false) (topic : Str) :
    v.lastPermitted requests topic = none := by
  induction requests with
  | nil => rfl
  | cons request requests ih =>
      rw [lastPermitted_cons, ih fun r hr => h r (mem_cons_of_mem _ hr)]
      simp [h request mem_cons_self]

/-- What the loop saves, topic by topic. -/
lemma foldl_saves {clientId : Str} (hv : IdUtil.validateClientId clientId = true)
    {requests : List Request} (hanswers : ∀ request ∈ requests, Answers request) (topic : Str)
    (old : Option MqttRouter) :
    (((v.saves (some clientId) (requests.map Prod.snd)).foldl
      (RouterAccess.apply ⟨clientId, topic⟩) old).map MqttRouter.qos) =
      (v.lastPermitted requests topic).or (old.map MqttRouter.qos) := by
  induction requests generalizing old with
  | nil => rfl
  | cons request requests ih =>
      have hanswer := hanswers request mem_cons_self
      have hrest := fun old => ih (fun r hr => hanswers r (mem_cons_of_mem _ hr)) old
      rw [map_cons, lastPermitted_cons]
      by_cases hpermitted : v.permitted request = true
      · rw [saves_cons_of_granted (by rw [granted_eq hanswer]; exact hpermitted), foldl_cons, hrest]
        have hne : request.1.topicName ≠ [] := by
          simp only [permitted, Bool.and_eq_true] at hpermitted
          exact ne_nil_of_check hpermitted.1
        have hkey : (⟨clientId, topic⟩ : MqttRouterKey) = MqttRouter.key
            ⟨v.broker.cacheService.thisNodeId, clientId, request.1.topicName, request.2.qos⟩ ↔
            request.1.topicName = topic := by
          simp [MqttRouter.key, eq_comm]
        rw [hanswer.1]
        simp only [RouterAccess.apply, hkey, hv, validateTopic_iff, hne, ne_eq,
          not_false_eq_true, and_true, hpermitted]
        by_cases htopic : request.1.topicName = topic
        · rw [if_pos htopic, if_pos htopic, Option.map_some, qos_of_permitted hanswer hpermitted]
          cases v.lastPermitted requests topic <;> rfl
        · rw [if_neg htopic, if_neg htopic, Option.or_none]
      · rw [saves_cons_of_not_granted (by rw [granted_eq hanswer]; exact hpermitted), hrest,
          if_neg fun h => hpermitted h.2, Option.or_none]

/-! ### One SUBSCRIBE -/

lemma storedQos_of_registered (hsound : v.broker.Sound) {id : ℕ}
    (hclient : v.client id = some client) (hfills : ∀ service ∈ v.authService, service.Fills)
    (hreg : v.registered client = true) (topic : Str) :
    (v.handleSubscribe id subs).2.storedQos client.clientId topic =
      (v.lastPermitted (v.requests client subs) topic).or (v.storedQos client.clientId topic) := by
  obtain ⟨hmap, -, hanswers⟩ := requests_spec hfills client subs
  obtain ⟨w, hget⟩ := Option.isSome_iff_exists.1 hreg
  have hwrapper : v.broker.wrapperClient client.clientId = some client.clientId := by
    rw [Broker.wrapperClient_of_some hget, hsound.client hget]
  have hwrites := writes_handleSubscribe hclient subs
  rw [hwrapper, ← hmap] at hwrites
  have hrouter := hwrites.broker.get hsound.routers ⟨client.clientId, topic⟩
  have hsaves := foldl_saves (v := v) (Broker.valid_of_getWrapper hget) hanswers topic
    (v.routerCache.routerOf client.clientId topic)
  rw [storedQos, storedQos, ← hsaves]
  exact congrArg (Option.map MqttRouter.qos) hrouter

lemma lastPermitted_concat {front : List Request} {last : Request}
    (hfront : ∀ request ∈ front, v.permitted request = false)
    (hgranted : v.permitted last = true) (topic : Str) :
    v.lastPermitted (front ++ [last]) topic =
      if last.1.topicName = topic then some last.1.qualityOfService.value else none := by
  rw [lastPermitted, reverse_append, reverse_singleton, singleton_append, find?_cons]
  by_cases htopic : last.1.topicName = topic
  · simp [htopic, hgranted]
  · have hother : (last.1.topicName == topic) = false := by simpa using htopic
    rw [hother, Bool.false_and, if_neg htopic]
    exact lastPermitted_of_refused hfront topic

/-- With nothing granted before the last filter, the first one that is granted is the last. -/
lemma eq_last_of_granted {front back front' : List Request} {first last : Request}
    (hgranted : v.permitted first = true)
    (hsplit : front ++ first :: back = front' ++ [last])
    (hfront' : ∀ request ∈ front', v.permitted request = false) : back = [] ∧ first = last := by
  rcases eq_nil_or_concat back with rfl | ⟨init, x, rfl⟩
  · obtain ⟨-, h⟩ := append_inj' hsplit rfl
    exact ⟨rfl, by simpa using h⟩
  · exfalso
    have heq : (front ++ first :: init) ++ [x] = front' ++ [last] := by
      rw [← hsplit]
      simp
    obtain ⟨rfl, -⟩ := append_inj' heq rfl
    have hrefused := hfront' first (by simp)
    rw [hgranted] at hrefused
    cases hrefused

/-- Without a wrapper the loop ends at the first filter that is granted. -/
lemma subAckExact_iff_of_unregistered {id : ℕ} (hclient : v.client id = some client)
    (hfills : ∀ service ∈ v.authService, service.Fills) {subs : List MqttTopicSubscription}
    (hunreg : v.registered client = false) {front back : List Request} {first : Request}
    (hsplit : v.requests client subs = front ++ first :: back)
    (hgranted : v.permitted first = true)
    (hfront : ∀ request ∈ front, v.permitted request = false) :
    v.SubAckExact id client subs ↔
      ∃ front last, v.requests client subs = front ++ [last] ∧
        (∀ request ∈ front, v.permitted request = false) ∧
        v.storedQos client.clientId last.1.topicName =
          some last.1.qualityOfService.value := by
  obtain ⟨hmap, hlength, hanswers⟩ := requests_spec hfills client subs
  have hloop : v.handleSubscribe id subs = (front.map v.code ++ [v.code first], v) := by
    simp only [handleSubscribe, hclient, ← hmap, hsplit]
    exact subscribeAll_of_unregistered hunreg (hsplit ▸ hanswers) hfront hgranted
  constructor
  · rintro ⟨hlen, -, hrouters⟩
    rw [hloop, ← hlength, hsplit] at hlen
    have hback : back = [] := by
      simp only [length_append, length_map, length_cons, length_nil] at hlen
      exact length_eq_zero_iff.1 (by omega)
    subst hback
    refine ⟨front, first, hsplit, hfront, ?_⟩
    have hrouter := hrouters first.1.topicName
    rw [hloop, hsplit, lastPermitted_concat hfront hgranted, if_pos rfl, Option.some_or] at hrouter
    exact hrouter
  · rintro ⟨front', last, hsplit', hfront', hstored⟩
    obtain ⟨rfl, rfl⟩ := eq_last_of_granted hgranted (hsplit ▸ hsplit') hfront'
    refine ⟨?_, ?_, fun topic => ?_⟩
    · rw [hloop, ← hlength, hsplit]
      simp
    · rw [hloop, hsplit, map_append]
      rfl
    · rw [hloop, hsplit, lastPermitted_concat hfront hgranted]
      split_ifs with htopic
      · rw [← htopic, hstored, Option.some_or]
      · rw [Option.none_or]

/-- The SUBACK and the routers are right iff the loop has a wrapper where it asks for it. -/
lemma subAckExact_iff_answerable (hsound : v.broker.Sound) {id : ℕ}
    (hclient : v.client id = some client) (hfills : ∀ service ∈ v.authService, service.Fills)
    (subs : List MqttTopicSubscription) :
    v.SubAckExact id client subs ↔ v.Answerable client subs := by
  obtain ⟨hmap, hlength, hanswers⟩ := requests_spec hfills client subs
  have hhandle : v.handleSubscribe id subs =
      subscribeAll client v ((v.requests client subs).map Prod.snd) := by
    simp only [handleSubscribe, hclient, hmap]
  by_cases hreg : v.registered client = true
  · refine iff_of_true ?_ (Or.inl hreg)
    have hcodes : (v.handleSubscribe id subs).1 = (v.requests client subs).map v.code := by
      rw [hhandle]
      exact codes_of_registered hanswers hreg
    refine ⟨?_, hcodes, storedQos_of_registered hsound hclient hfills hreg⟩
    rw [hcodes, length_map, hlength]
  by_cases hrefused : ∀ request ∈ v.requests client subs, v.permitted request = false
  · -- nothing is granted
    have hloop : subscribeAll client v ((v.requests client subs).map Prod.snd) =
        ((v.requests client subs).map v.code, v) := subscribeAll_of_refused hanswers hrefused
    rw [← hhandle] at hloop
    refine iff_of_true ⟨?_, congrArg Prod.fst hloop, fun topic => ?_⟩ (Or.inr (Or.inl hrefused))
    · rw [hloop, length_map, hlength]
    · rw [hloop, lastPermitted_of_refused hrefused, Option.none_or]
  · obtain ⟨request, hmem, hpermitted⟩ : ∃ request ∈ v.requests client subs,
        v.permitted request = true := by simpa using hrefused
    obtain ⟨first, hfirst⟩ : ∃ first,
        (v.requests client subs).find? v.permitted = some first :=
      Option.isSome_iff_exists.1 (find?_isSome.2 ⟨request, hmem, hpermitted⟩)
    obtain ⟨hgranted, front, back, hsplit, hfront⟩ := find?_eq_some_iff_append.1 hfirst
    have hiff := subAckExact_iff_of_unregistered hclient hfills (by simpa using hreg) hsplit
      hgranted fun r hr => by simpa using hfront r hr
    rw [hiff]
    constructor
    · exact fun hlast => Or.inr (Or.inr hlast)
    · rintro (hreg' | hno | hlast)
      · exact absurd hreg' hreg
      · exact absurd hno hrefused
      · exact hlast

/-! ### The handlers keep the broker sound -/

lemma sound_handleWillPublish (h : v.broker.Sound) (id : ℕ) :
    (v.handleWillPublish id).broker.Sound := h.of_writes (writes_handleWillPublish v id).broker

lemma writes_onClient (v : Verticle) (id : ℕ)
    (f : ∀ {kind}, SessionWrapper kind → SessionWrapper kind) : Writes v (v.onClient id f) [] := by
  simp only [onClient]
  split
  · exact .refl v
  · exact writes_withBroker (Broker.writes_onRegistered _ _ _)

lemma sound_step {op : Op} (h : v.broker.Sound) (hstep : v.step op = some v') :
    v'.broker.Sound := by
  cases op with
  | accept connection cleanSession =>
      simp only [step] at hstep
      split_ifs at hstep
      obtain rfl := Option.some.inj hstep
      exact h.handleAccept _ _
  | close id =>
      obtain rfl := Option.some.inj hstep
      have hlost : (v.withBroker (v.broker.disconnect id)).broker.Sound := h.disconnect id
      exact (sound_handleWillPublish hlost id).closeSession id
  | publish id message =>
      obtain rfl := Option.some.inj hstep
      exact h.of_writes (writes_handlePublish v id message).broker
  | publishRelease id messageId =>
      obtain rfl := Option.some.inj hstep
      exact h.of_writes (writes_handlePublishRelease v id messageId).broker
  | publishAcknowledge id messageId | publishReceived id messageId
  | publishCompletion id messageId =>
      obtain rfl := Option.some.inj hstep
      exact h.of_writes (writes_onClient v id _).broker
  | subscribe id subs =>
      obtain rfl := Option.some.inj hstep
      cases hclient : v.client id with
      | none =>
          simp only [handleSubscribe, hclient]
          exact h
      | some client => exact h.of_writes (writes_handleSubscribe hclient subs).broker
  | unsubscribe id topics =>
      obtain rfl := Option.some.inj hstep
      cases hclient : v.client id with
      | none =>
          simp only [handleUnsubscribe, hclient]
          exact h
      | some client => exact h.of_writes (writes_handleUnsubscribe hclient topics).broker
  | retry clientId messageId =>
      obtain rfl := Option.some.inj hstep
      exact h.of_writes (Broker.writes_onRegistered _ _ _)
  | setAuthService authService =>
      obtain rfl := Option.some.inj hstep
      exact h

end Verticle

/-! ### Beside the sessions that are opened and closed -/

namespace SubAck

/-- The verticle, the calls of `openSession`, and those of `closeSession` that are past their
checks. -/
structure State where
  verticle : Verticle
  openings : List Opening
  closers : List ℕ

inductive Action where
  /-- a CONNECT that `handleEndpoint` lets through -/
  | connect (connection : MqttConnection) (cleanSession : Bool)
  /-- the next step of `handleAccept` -/
  | accept (i : ℕ)
  | disconnect (id : ℕ)
  | willPublish (id : ℕ)
  /-- `closeSession` up to the lock -/
  | closeCheck (id : ℕ)
  | closeLocked (id : ℕ)
  /-- a handler that runs without another one in between -/
  | handle (op : Verticle.Op)

/-- After `openSession` the will is saved, and then the endpoint is accepted. -/
def saveWill (v : Verticle) (o : Opening) : Verticle :=
  match o.pc with
  | .returned => { v with
      willCache := v.willCache.handleWillMessage o.clientId o.id
        (v.connections[o.id]?.bind MqttConnection.will) }
  | _ => v

def step (s : State) : Action → Option State
  | .connect connection cleanSession =>
      let clientId := connection.client.clientId
      if IdUtil.validateClientId clientId then
        some { s with
          verticle := { s.verticle with
            broker := s.verticle.broker.addEndpoint clientId cleanSession
            connections := s.verticle.connections ++ [connection] }
          openings := s.openings ++
            [⟨clientId, s.verticle.broker.endpoints.length, cleanSession, .start⟩] }
      else none
  | .accept i =>
      (s.openings[i]?).bind fun o => (o.step s.verticle.broker).map fun r => { s with
        verticle := (saveWill s.verticle o).withBroker r.1
        openings := s.openings.set i r.2 }
  | .disconnect id =>
      some { s with verticle := s.verticle.withBroker (s.verticle.broker.disconnect id) }
  | .willPublish id => some { s with verticle := s.verticle.handleWillPublish id }
  | .closeCheck id =>
      (s.verticle.broker.endpoint id).map fun endpoint =>
        if endpoint.isClosed && s.verticle.broker.mayClose endpoint then
          { s with closers := id :: s.closers }
        else s
  | .closeLocked id =>
      (s.verticle.broker.endpoint id).bind fun endpoint =>
        if id ∈ s.closers then
          some { s with
            verticle := s.verticle.withBroker (s.verticle.broker.closeLocked endpoint id)
            closers := s.closers.erase id }
        else none
  | .handle op => (s.verticle.step op).map fun v => { s with verticle := v }

/-- The node has just started, and nobody connects. -/
structure Start (s : State) : Prop where
  broker : s.verticle.broker.Restarted
  openings : s.openings = []

/-- What holds in every state. -/
structure Inv (s : State) : Prop where
  sound : s.verticle.broker.Sound
  openings : ∀ o ∈ s.openings, o.Holds

variable {s s' : State}

lemma Start.inv (h : Start s) : Inv s :=
  ⟨h.broker.sound, fun o ho => by simp [h.openings] at ho⟩

lemma inv_step {action : Action} (h : Inv s) (hstep : step s action = some s') : Inv s' := by
  cases action with
  | connect connection cleanSession =>
      simp only [step] at hstep
      split_ifs at hstep
      obtain rfl := Option.some.inj hstep
      refine ⟨h.sound.addEndpoint _ _, fun o ho => ?_⟩
      rcases mem_append.1 ho with ho | ho
      · exact h.openings o ho
      · obtain rfl := mem_singleton.1 ho
        intro w hw
        cases hw
  | accept i =>
      simp only [step, Option.bind_eq_some_iff, Option.map_eq_some_iff] at hstep
      obtain ⟨o, ho, ⟨b, o'⟩, hopening, rfl⟩ := hstep
      obtain ⟨hsound, hholds⟩ := h.sound.opening (h.openings o (mem_of_getElem? ho)) hopening
      refine ⟨hsound, fun o'' ho'' => ?_⟩
      rcases mem_or_eq_of_mem_set ho'' with hmem | rfl
      · exact h.openings o'' hmem
      · exact hholds
  | disconnect id =>
      obtain rfl := Option.some.inj hstep
      exact ⟨h.sound.disconnect id, h.openings⟩
  | willPublish id =>
      obtain rfl := Option.some.inj hstep
      exact ⟨Verticle.sound_handleWillPublish h.sound id, h.openings⟩
  | closeCheck id =>
      simp only [step, Option.map_eq_some_iff] at hstep
      obtain ⟨endpoint, -, rfl⟩ := hstep
      split_ifs
      · exact ⟨h.sound, h.openings⟩
      · exact h
  | closeLocked id =>
      simp only [step, Option.bind_eq_some_iff] at hstep
      obtain ⟨endpoint, -, hstep⟩ := hstep
      split_ifs at hstep
      obtain rfl := Option.some.inj hstep
      exact ⟨h.sound.closeLocked endpoint id, h.openings⟩
  | handle op =>
      simp only [step, Option.map_eq_some_iff] at hstep
      obtain ⟨v, hv, rfl⟩ := hstep
      exact ⟨Verticle.sound_step h.sound hv, h.openings⟩

lemma inv_run {actions : List Action} (h : Start s) (hrun : run step s actions = some s') :
    Inv s' :=
  invariant_run (fun _ _ _ _ hinv _ hstep => inv_step hinv hstep) h.inv (allSteps_true _ _) hrun

/-- In every state that is reached, also while sessions are opened and closed, the SUBACK carries
one exact code for each filter and the routers are those that were granted iff the loop over the
answers has a wrapper where it asks for one. -/
theorem subAckExact_iff {actions : List Action} (hstart : Start s)
    (hrun : run step s actions = some s') {id : ℕ} {client : MqttClient}
    (hclient : s'.verticle.client id = some client)
    (hfills : ∀ service ∈ s'.verticle.authService, service.Fills)
    (subs : List MqttTopicSubscription) :
    s'.verticle.SubAckExact id client subs ↔ s'.verticle.Answerable client subs :=
  Verticle.subAckExact_iff_answerable (inv_run hstart hrun).sound hclient hfills subs

/-- A verticle without an auth service. -/
def sampleStart : State := ⟨Verticle.initial ⟨true, false, 4, 1⟩ none, [], []⟩

def sampleConnection : MqttConnection := ⟨LocalAuthService.sampleClient, none⟩

def sampleSubs : List MqttTopicSubscription :=
  [⟨['t'], .atMostOnce⟩, ⟨['u'], .atLeastOnce⟩]

/-- The client of a persistent session connects again, up to the end of the locked section. -/
def takeoverActions : List Action :=
  [.handle (.accept sampleConnection false), .connect sampleConnection false, .accept 0, .accept 0]

lemma start_initial (config : MqttConfig) (authService : Option AuthService) :
    Start ⟨Verticle.initial config authService, [], []⟩ := ⟨Broker.restarted_initial _ _, rfl⟩

def takenState : State := (run step sampleStart takeoverActions).get (by decide)

lemma run_takenState : run step sampleStart takeoverActions = some takenState :=
  (Option.some_get _).symm

/-- Nobody may subscribe to the topic `t`. -/
def refusingRules : AclCache :=
  AclCache.empty.add ⟨0, AclConst.ALL, Target.all.value, ['t'], Access.sub.value,
    Authority.deny.value⟩

/-- A verticle that answers by `refusingRules`. -/
def refusingStart : State :=
  ⟨Verticle.initial ⟨true, false, 4, 1⟩ (some (LocalAuthService.service refusingRules)), [], []⟩

def refusingTaken : State := (run step refusingStart takeoverActions).get (by decide)

/-- The first filter is denied, and the second one meets no wrapper. -/
theorem subAckExact_iff_takeover :
    (refusingTaken.verticle.requests LocalAuthService.sampleClient sampleSubs).map
        refusingTaken.verticle.permitted = [false, true] ∧
      (refusingTaken.verticle.SubAckExact 0 LocalAuthService.sampleClient sampleSubs ↔
        refusingTaken.verticle.Answerable LocalAuthService.sampleClient sampleSubs) := by
  refine ⟨by decide, subAckExact_iff (start_initial _ _) (Option.some_get _).symm (by decide)
    (fun service hservice => ?_) sampleSubs⟩
  obtain rfl : LocalAuthService.service refusingRules = service := Option.some.inj hservice
  exact LocalAuthService.fills_service refusingRules

/-- The first connection subscribes to two topics in the meantime, and gets one code. -/
theorem not_subAckExact :
    ¬∀ (s s' : State) (actions : List Action) (id : ℕ) (client : MqttClient)
      (subs : List MqttTopicSubscription), Start s → run step s actions = some s' →
      s'.verticle.client id = some client → (∀ service ∈ s'.verticle.authService, service.Fills) →
      s'.verticle.SubAckExact id client subs := by
  intro h
  have hexact := h sampleStart takenState takeoverActions 0 LocalAuthService.sampleClient sampleSubs
    (start_initial _ _) run_takenState (by decide) fun service hservice => by cases hservice
  exact absurd hexact.length (by decide)

end SubAck

end Stuart
