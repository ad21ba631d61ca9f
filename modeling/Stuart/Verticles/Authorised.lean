/-
Which routed messages were authorised.

Three paths lead to the routing: a PUBLISH with QoS 0 or 1, the PUBREL of a stored message with
QoS 2, and the will at the end of a connection.  On the first two the topic was checked and
`canAccess` returned true when the PUBLISH came in; nothing checks a will, neither when it is
stored nor when it is published.  So in a run every routed message was authorised iff no close
finds a stored will (`authorised_iff`).
-/
import Stuart.Lib.Runs
import Stuart.Services.AwaitFrame
import Stuart.Verticles.Access

namespace Stuart

open List Lib TopicUtil AuthUtil

/-- The routed message is the inbound message of the client: the PUBLISH itself, its await message
or the stored will. -/
def Origin.ComesFrom : Origin → MqttClient → Inbound → Prop
  | .publish client message, client', inbound => client' = client ∧ inbound = .publish message
  | .release await, client, .publish message =>
      await = message.convert2MqttAwaitMessage client.clientId
  | .release _, _, .will _ => False
  | .will stored, client, .will w =>
      stored = MsgUtil.convert2MqttWillMessage w client.clientId stored.connection
  | .will _, _, .publish _ => False

def Origin.topic : Origin → Str
  | .publish _ message => message.topicName
  | .release await => await.topic
  | .will stored => stored.topic

/-- An inbound message was let through before: its topic is a valid one to publish to, and
`canAccess` returned true for it. -/
def Origin.AllowedIn (log : List Event) (origin : Origin) : Prop :=
  checkPublishTopic origin.topic = true ∧
    ∃ client inbound, origin.ComesFrom client inbound ∧ .allowed client inbound ∈ log

lemma Origin.AllowedIn.append {log : List Event} {origin : Origin} (h : origin.AllowedIn log)
    (events : List Event) : origin.AllowedIn (log ++ events) := by
  obtain ⟨hcheck, client, inbound, hcomes, hmem⟩ := h
  exact ⟨hcheck, client, inbound, hcomes, mem_append_left _ hmem⟩

/-- Every routed message was authorised before it was routed. -/
def Authorised (log : List Event) : Prop :=
  ∀ front origin back, log = front ++ .routed origin :: back → origin.AllowedIn front

namespace Verticle

/-- What happens to a verticle: packets, closes and retry expiries, each handled to its end, and
changes of the rules that the auth service answers by. -/
inductive Op where
  | accept (connection : MqttConnection) (cleanSession : Bool)
  | close (id : ℕ)
  | publish (id : ℕ) (message : MqttPublishMessage)
  | publishRelease (id : ℕ) (messageId : ℤ)
  | publishAcknowledge (id : ℕ) (messageId : ℤ)
  | publishReceived (id : ℕ) (messageId : ℤ)
  | publishCompletion (id : ℕ) (messageId : ℤ)
  | subscribe (id : ℕ) (subs : List MqttTopicSubscription)
  | unsubscribe (id : ℕ) (topics : List Str)
  | retry (clientId : Str) (messageId : ℤ)
  | setAuthService (authService : Option AuthService)

/-- A method of the registered wrapper of the client of a connection. -/
def onClient (v : Verticle) (id : ℕ) (f : ∀ {kind}, SessionWrapper kind → SessionWrapper kind) :
    Verticle :=
  match v.client id with
  | none => v
  | some client => v.withBroker (v.broker.onRegistered client.clientId f)

def step (v : Verticle) : Op → Option Verticle
  | .accept connection cleanSession =>
      -- `handleEndpoint` rejects an empty client id
      if IdUtil.validateClientId connection.client.clientId then
        some (v.handleAccept connection cleanSession)
      else none
  | .close id => some (v.handleClose id)
  | .publish id message => some (v.handlePublish id message)
  | .publishRelease id messageId => some (v.handlePublishRelease id messageId)
  | .publishAcknowledge id messageId => some (v.onClient id fun w => w.receivePuback messageId)
  | .publishReceived id messageId => some (v.onClient id fun w => w.receivePubrec messageId)
  | .publishCompletion id messageId => some (v.onClient id fun w => w.receivePubcomp messageId)
  | .subscribe id subs => some (v.handleSubscribe id subs).2
  | .unsubscribe id topics => some (v.handleUnsubscribe id topics)
  | .retry clientId messageId =>
      some (v.withBroker (v.broker.onRegistered clientId fun w => w.retry messageId))
  | .setAuthService authService => some { v with authService := authService }

/-- Nothing has happened yet: there is no await message and no will. -/
structure Fresh (v : Verticle) : Prop where
  log : v.log = []
  willCache : v.willCache = ∅
  awaits : v.broker.AwaitsFrom fun _ => False

/-- The await message is that of a PUBLISH that was let through. -/
def AwaitAllowed (log : List Event) (await : MqttAwaitMessage) : Prop :=
  (Origin.release await).AllowedIn log

/-! ### What the steps note -/

/-- What a step that publishes no will notes, and what it does to the await messages. -/
inductive Effect (v v' : Verticle) : List Event → Prop where
  /-- only subscriptions -/
  | quiet (events : List Event)
      (subscribed : ∀ event ∈ events, ∃ client topic qos, event = .subscribed client topic qos)
      (awaits : ∀ P, v.broker.AwaitsFrom P → v'.broker.AwaitsFrom P) : Effect v v' events
  /-- a PUBLISH that is routed at once -/
  | passed (client : MqttClient) (message : MqttPublishMessage)
      (check : checkPublishTopic message.topicName = true)
      (awaits : ∀ P, v.broker.AwaitsFrom P → v'.broker.AwaitsFrom P) :
      Effect v v' [.allowed client (.publish message), .routed (.publish client message)]
  /-- a PUBLISH with QoS 2, and whether there is a session to keep it -/
  | received (client : MqttClient) (message : MqttPublishMessage) (events : List Event)
      (check : checkPublishTopic message.topicName = true)
      (noted : events = [] ∨ events = [.received client message])
      (awaits : ∀ P : MqttAwaitMessage → Prop,
        P (message.convert2MqttAwaitMessage client.clientId) →
          v.broker.AwaitsFrom P → v'.broker.AwaitsFrom P) :
      Effect v v' (.allowed client (.publish message) :: events)
  /-- the PUBREL of an await message -/
  | released (await : MqttAwaitMessage) (stored : ∀ P, v.broker.AwaitsFrom P → P await)
      (awaits : ∀ P, v.broker.AwaitsFrom P → v'.broker.AwaitsFrom P) :
      Effect v v' [.routed (.release await)]

variable {v v' : Verticle}

lemma Effect.nothing (h : ∀ P, v.broker.AwaitsFrom P → v'.broker.AwaitsFrom P) : Effect v v' [] :=
  .quiet [] (by simp) h

/-- Routing changes no await message. -/
lemma awaits_route {P : MqttAwaitMessage → Prop} (h : v.broker.AwaitsFrom P) (origin : Origin)
    (topic : Str) (qos : MqttQoS) (message : MqttMessage) :
    (v.route origin topic qos message).broker.AwaitsFrom P := by
  have hfold : ∀ (routes : List MqttRoute) (b : Broker), b.AwaitsFrom P →
      (routes.foldl (fun b route => b.handleLocalPublishMessage route.clientId message
        (MqttQoS.valueOf route.qos)) b).AwaitsFrom P := by
    intro routes
    induction routes with
    | nil => exact fun b hb => hb
    | cons route routes ih =>
        exact fun b hb => ih _ (hb.handleLocalPublishMessage route.clientId message _)
  exact hfold _ _ h

/-- A PUBLISH that is let through adds at most its own await message. -/
lemma awaits_handlePublish {P : MqttAwaitMessage → Prop} (h : v.broker.AwaitsFrom P) (id : ℕ)
    (message : MqttPublishMessage) (hP : message.qosLevel = .exactlyOnce → ∀ client ∈ v.client id,
      P (message.convert2MqttAwaitMessage client.clientId)) :
    (v.handlePublish id message).broker.AwaitsFrom P := by
  simp only [handlePublish]
  cases hclient : v.client id with
  | none => exact h
  | some client =>
      dsimp only
      split_ifs with hcheck hacc hq
      · exact h
      · exact h
      · -- the message is kept until its PUBREL
        rw [broker_handleRetainMessage]
        split
        · rw [broker_handleRetainMessage]
          exact h
        · exact Broker.AwaitsFrom.receiveQos2Message h client.clientId (hP hq client hclient)
      · refine awaits_route ?_ _ _ _ _
        rw [broker_handleRetainMessage]
        exact h

lemma effect_handlePublish (v : Verticle) (id : ℕ) (message : MqttPublishMessage) :
    ∃ events, (v.handlePublish id message).log = v.log ++ events ∧
      Effect v (v.handlePublish id message) events := by
  cases hclient : v.client id with
  | none =>
      have hsame : v.handlePublish id message = v := by
        simp only [handlePublish]
        rw [hclient]
      exact ⟨[], by rw [hsame, append_nil], .nothing fun P hP => by rw [hsame]; exact hP⟩
  | some client =>
      by_cases h : checkPublishTopic message.topicName = true ∧
          canAccess v.config.isAuthAclAllowNomatch .pub
            (some (v.checkResult client message.topicName)) = true
      · have hlog := log_handlePublish hclient h.1 h.2
        by_cases hq : message.qosLevel = .exactlyOnce
        · rw [if_neg (by simp [hq])] at hlog
          -- QoS 2: not routed yet, the await message remembers the topic that was checked
          refine ⟨_, hlog, .received client message _ h.1 ?_ fun P hP hv => ?_⟩
          · split_ifs
            · exact Or.inr rfl
            · exact Or.inl rfl
          · refine awaits_handlePublish hv id message fun _ client' hclient' => ?_
            rw [Option.mem_def, hclient] at hclient'
            obtain rfl := Option.some.inj hclient'
            exact hP
        · rw [if_pos hq] at hlog
          refine ⟨_, hlog, .passed client message h.1 fun P hv => ?_⟩
          exact awaits_handlePublish hv id message fun hq' => absurd hq' hq
      · have hsame := handlePublish_refused hclient h
        exact ⟨[], by rw [hsame, append_nil], .nothing fun P hP => by rw [hsame]; exact hP⟩

lemma effect_handlePublishRelease (v : Verticle) (id : ℕ) (messageId : ℤ) :
    ∃ events, (v.handlePublishRelease id messageId).log = v.log ++ events ∧
      Effect v (v.handlePublishRelease id messageId) events := by
  simp only [handlePublishRelease]
  cases hclient : v.client id with
  | none => exact ⟨[], by simp, .nothing fun P hP => hP⟩
  | some client =>
      dsimp only
      cases hreleased : (v.broker.releaseQos2Message client.clientId messageId).1 with
      | none => exact ⟨[], by simp, .nothing fun P hP => (hP.releaseQos2Message _ _).2⟩
      | some await =>
          refine ⟨_, rfl, .released await (fun P hP => ?_) fun P hP => ?_⟩
          · exact (hP.releaseQos2Message _ _).1 await hreleased
          · exact awaits_route (hP.releaseQos2Message _ _).2 _ _ _ _

lemma awaits_handlePublishRetainMessage {P : MqttAwaitMessage → Prop} (h : v.broker.AwaitsFrom P)
    (clientId topic : Str) (qos : ℤ) :
    (v.handlePublishRetainMessage clientId topic qos).broker.AwaitsFrom P := by
  simp only [handlePublishRetainMessage]
  split_ifs
  · exact h
  · exact h.onRegistered clientId _

lemma awaits_subscribeAll {P : MqttAwaitMessage → Prop} (client : MqttClient)
    (results : List MqttAuthority) (v : Verticle) (h : v.broker.AwaitsFrom P) :
    (subscribeAll client v results).2.broker.AwaitsFrom P := by
  induction results generalizing v with
  | nil => exact h
  | cons result results ih =>
      simp only [subscribeAll]
      split_ifs
      · split
        · exact h
        · exact ih _ (awaits_handlePublishRetainMessage (h.subscribeTopic _ _ _) _ _ _)
      · exact ih v h

lemma effect_handleSubscribe (v : Verticle) (id : ℕ) (subs : List MqttTopicSubscription) :
    ∃ events, (v.handleSubscribe id subs).2.log = v.log ++ events ∧
      Effect v (v.handleSubscribe id subs).2 events := by
  simp only [handleSubscribe]
  cases hclient : v.client id with
  | none => exact ⟨[], by simp, .nothing fun P hP => hP⟩
  | some client =>
      obtain ⟨events, hlog, hall, -⟩ := log_subscribeAll client v (v.checkResults client subs)
      refine ⟨events, hlog, .quiet events (fun event hevent => ?_) fun P hP => ?_⟩
      · exact ⟨client, hall event hevent⟩
      · exact awaits_subscribeAll client _ v hP

/-- A close finds no stored will, or publishes the one it finds. -/
lemma handleClose_cases (v : Verticle) (id : ℕ) :
    (∀ P, v.broker.AwaitsFrom P → (v.handleClose id).broker.AwaitsFrom P) ∧
      ((∀ client ∈ v.client id, v.willCache.getWill client.clientId = none) ∧
        (v.handleClose id).log = v.log ∨
      (¬∀ client ∈ v.client id, v.willCache.getWill client.clientId = none) ∧
        ∃ will, (v.handleClose id).log = v.log ++ [.routed (.will will)]) := by
  have hclient' : (v.withBroker (v.broker.disconnect id)).client id = v.client id := rfl
  simp only [handleClose, handleWillPublish]
  rw [hclient']
  cases hclient : v.client id with
  | none =>
      exact ⟨fun P hP => (hP.disconnect id).closeSession id, Or.inl ⟨by simp, rfl⟩⟩
  | some client =>
      dsimp only
      have hcache : (v.withBroker (v.broker.disconnect id)).willCache = v.willCache := rfl
      rw [hcache]
      cases hfound : v.willCache.getWill client.clientId with
      | none =>
          exact ⟨fun P hP => (hP.disconnect id).closeSession id, Or.inl ⟨by simp [hfound], rfl⟩⟩
      | some will =>
          -- the will is routed; nothing has checked it
          refine ⟨fun P hP => ?_, Or.inr ⟨by simp [hfound], will, rfl⟩⟩
          exact (awaits_route (v := v.withBroker (v.broker.disconnect id)) (hP.disconnect id)
            (.will will) _ _ _).closeSession id

lemma effect_onClient (v : Verticle) (id : ℕ)
    (f : ∀ {kind}, SessionWrapper kind → SessionWrapper kind) :
    ∃ events, (v.onClient id f).log = v.log ++ events ∧ Effect v (v.onClient id f) events := by
  simp only [onClient]
  split
  · exact ⟨[], by simp, .nothing fun P hP => hP⟩
  · exact ⟨[], by simp, .nothing fun P hP => hP.onRegistered _ _⟩

lemma awaits_unsubscribe {P : MqttAwaitMessage → Prop} (clientId : Str) (topics : List Str)
    (b : Broker) (h : b.AwaitsFrom P) :
    (topics.foldl (fun b topic => b.unsubscribeTopic clientId topic) b).AwaitsFrom P := by
  induction topics generalizing b with
  | nil => exact h
  | cons topic topics ih => exact ih _ (h.unsubscribeTopic clientId topic)

/-- The condition on a step: a close finds no stored will. -/
def NoStoredWill (v : Verticle) : Op → Prop
  | .close id => ∀ client ∈ v.client id, v.willCache.getWill client.clientId = none
  | _ => True

instance (v : Verticle) : (op : Op) → Decidable (v.NoStoredWill op)
  | .close id => inferInstanceAs (Decidable (∀ client ∈ v.client id, _))
  | .accept .. => inferInstanceAs (Decidable True)
  | .publish .. => inferInstanceAs (Decidable True)
  | .publishRelease .. => inferInstanceAs (Decidable True)
  | .publishAcknowledge .. => inferInstanceAs (Decidable True)
  | .publishReceived .. => inferInstanceAs (Decidable True)
  | .publishCompletion .. => inferInstanceAs (Decidable True)
  | .subscribe .. => inferInstanceAs (Decidable True)
  | .unsubscribe .. => inferInstanceAs (Decidable True)
  | .retry .. => inferInstanceAs (Decidable True)
  | .setAuthService .. => inferInstanceAs (Decidable True)

/-- A step has one of the effects, or it is a close that publishes a will. -/
lemma step_cases {op : Op} (hstep : v.step op = some v') :
    (v.NoStoredWill op ∧ ∃ events, v'.log = v.log ++ events ∧ Effect v v' events) ∨
      (¬v.NoStoredWill op ∧ (∀ P, v.broker.AwaitsFrom P → v'.broker.AwaitsFrom P) ∧
        ∃ will, v'.log = v.log ++ [.routed (.will will)]) := by
  cases op with
  | accept connection cleanSession =>
      simp only [step] at hstep
      split_ifs at hstep
      obtain rfl := Option.some.inj hstep
      exact Or.inl ⟨trivial, [], (append_nil _).symm, .nothing fun P hP => hP.handleAccept _ _⟩
  | close id =>
      obtain rfl := Option.some.inj hstep
      obtain ⟨hawaits, ⟨hno, hlog⟩ | ⟨hwill, hlog⟩⟩ := handleClose_cases v id
      · exact Or.inl ⟨hno, [], by rw [hlog, append_nil], .nothing hawaits⟩
      · exact Or.inr ⟨hwill, hawaits, hlog⟩
  | publish id message =>
      obtain rfl := Option.some.inj hstep
      exact Or.inl ⟨trivial, effect_handlePublish v id message⟩
  | publishRelease id messageId =>
      obtain rfl := Option.some.inj hstep
      exact Or.inl ⟨trivial, effect_handlePublishRelease v id messageId⟩
  | publishAcknowledge id messageId =>
      obtain rfl := Option.some.inj hstep
      exact Or.inl ⟨trivial, effect_onClient v id _⟩
  | publishReceived id messageId =>
      obtain rfl := Option.some.inj hstep
      exact Or.inl ⟨trivial, effect_onClient v id _⟩
  | publishCompletion id messageId =>
      obtain rfl := Option.some.inj hstep
      exact Or.inl ⟨trivial, effect_onClient v id _⟩
  | subscribe id subs =>
      obtain rfl := Option.some.inj hstep
      exact Or.inl ⟨trivial, effect_handleSubscribe v id subs⟩
  | unsubscribe id topics =>
      obtain rfl := Option.some.inj hstep
      refine Or.inl ⟨trivial, ?_⟩
      simp only [handleUnsubscribe]
      split
      · exact ⟨[], by simp, .nothing fun P hP => hP⟩
      · exact ⟨[], by simp, .nothing fun P hP => awaits_unsubscribe _ topics _ hP⟩
  | retry clientId messageId =>
      obtain rfl := Option.some.inj hstep
      exact Or.inl ⟨trivial, [], by simp, .nothing fun P hP => hP.onRegistered clientId _⟩
  | setAuthService authService =>
      obtain rfl := Option.some.inj hstep
      exact Or.inl ⟨trivial, [], (append_nil _).symm, .nothing fun P hP => hP⟩

/-! ### The log -/

/-- A condition on every event of the log. -/
lemma authorised_iff_allowed {log : List Event} : Authorised log ↔ Allowed (fun before event =>
    ∀ origin, event = .routed origin → origin.AllowedIn before) log := by
  constructor
  · rintro h before event after hlog origin rfl
    exact h before origin after hlog
  · intro h front origin back hlog
    exact h front _ back hlog origin rfl

/-- A log grows by one event. -/
lemma authorised_concat {log : List Event} (h : Authorised log) {event : Event}
    (hevent : ∀ origin, event = .routed origin → origin.AllowedIn log) :
    Authorised (log ++ [event]) :=
  authorised_iff_allowed.2 (allowed_concat.2 ⟨authorised_iff_allowed.1 h, hevent⟩)

/-- A log grows by events that are no routed messages. -/
lemma authorised_append {log events : List Event} (h : Authorised log)
    (hevents : ∀ event ∈ events, ∀ origin, event ≠ .routed origin) :
    Authorised (log ++ events) := by
  have hquiet : ∀ event ∈ events, ∀ before : List Event, ∀ origin, event = .routed origin →
      origin.AllowedIn before :=
    fun event he before origin heq => absurd heq (hevents event he origin)
  exact authorised_iff_allowed.2 ((allowed_append hquiet).2 (authorised_iff_allowed.1 h))

/-! ### The invariant -/

/-- The await messages come from PUBLISHes that were let through, and no will was ever checked. -/
structure Inv (v : Verticle) : Prop where
  awaits : v.broker.AwaitsFrom (AwaitAllowed v.log)
  unchecked : ∀ client will, .allowed client (.will will) ∉ v.log

/-- The await messages and the log after a step that notes no checked will. -/
lemma Inv.mono (h : v.Inv) {events : List Event} (hlog : v'.log = v.log ++ events)
    (hawaits : v.broker.AwaitsFrom (AwaitAllowed v'.log) →
      v'.broker.AwaitsFrom (AwaitAllowed v'.log))
    (hno : ∀ client will, .allowed client (.will will) ∉ events) : v'.Inv := by
  refine ⟨hawaits (h.awaits.imp fun a ha => ?_), fun client will hin => ?_⟩
  · rw [hlog]
    exact ha.append events
  · rw [hlog, mem_append] at hin
    exact hin.elim (h.unchecked client will) (hno client will)

lemma Inv.step (h : v.Inv) {op : Op} (hstep : v.step op = some v') : v'.Inv := by
  rcases step_cases hstep with ⟨-, events, hlog, heff⟩ | ⟨-, hawaits, will, hlog⟩
  · cases heff with
    | quiet events hsub hawaits =>
        refine h.mono hlog (hawaits _) fun client will hin => ?_
        obtain ⟨c, topic, qos, heq⟩ := hsub _ hin
        exact absurd heq (by simp)
    | passed client message hcheck hawaits => exact h.mono hlog (hawaits _) (by simp)
    | received client message events hcheck hnoted hawaits =>
        -- the new await message is that of the PUBLISH that the log notes here
        refine h.mono hlog (hawaits _ ⟨hcheck, client, .publish message, rfl, ?_⟩) fun c will => ?_
        · rw [hlog]
          simp
        · rcases hnoted with rfl | rfl <;> simp
    | released await hstored hawaits => exact h.mono hlog (hawaits _) (by simp)
  · exact h.mono hlog (hawaits _) (by simp)

/-- A step that finds no will routes only what was authorised. -/
lemma Inv.authorised_step (h : v.Inv) (ha : Authorised v.log) {op : Op} (hno : v.NoStoredWill op)
    (hstep : v.step op = some v') : Authorised v'.log := by
  rcases step_cases hstep with ⟨-, events, hlog, heff⟩ | ⟨hwill, -⟩
  · rw [hlog]
    cases heff with
    | quiet events hsub hawaits =>
        refine authorised_append ha fun event hevent origin heq => ?_
        obtain ⟨c, topic, qos, heq'⟩ := hsub _ hevent
        exact absurd (heq.symm.trans heq') (by simp)
    | passed client message hcheck hawaits =>
        -- `allowed` stands directly before `routed`
        rw [append_cons]
        refine authorised_concat (authorised_concat ha (by simp)) fun origin heq => ?_
        obtain rfl := Event.routed.inj heq
        exact ⟨hcheck, client, .publish message, ⟨rfl, rfl⟩, by simp⟩
    | received client message events hcheck hnoted hawaits =>
        refine authorised_append ha fun event hevent origin heq => ?_
        subst heq
        rcases hnoted with rfl | rfl <;> simp at hevent
    | released await hstored hawaits =>
        refine authorised_concat ha fun origin heq => ?_
        obtain rfl := Event.routed.inj heq
        -- the invariant of the await store, from the time of its PUBLISH
        exact hstored _ h.awaits
  · exact absurd hno hwill

/-- A will has been routed. -/
def WillRouted (v : Verticle) : Prop := ∃ will, .routed (.will will) ∈ v.log

lemma WillRouted.step (h : v.WillRouted) {op : Op} (hstep : v.step op = some v') :
    v'.WillRouted := by
  obtain ⟨will, hmem⟩ := h
  rcases step_cases hstep with ⟨-, events, hlog, -⟩ | ⟨-, -, w, hlog⟩
  · exact ⟨will, by rw [hlog]; exact mem_append_left _ hmem⟩
  · exact ⟨will, by rw [hlog]; exact mem_append_left _ hmem⟩

/-- A routed will was not authorised. -/
lemma Inv.not_authorised (h : v.Inv) (hwill : v.WillRouted) : ¬Authorised v.log := by
  intro ha
  obtain ⟨will, hmem⟩ := hwill
  obtain ⟨front, back, heq⟩ := append_of_mem hmem
  obtain ⟨-, client, inbound, hcomes, hallowed⟩ := ha front (.will will) back heq
  cases inbound with
  | publish message => exact hcomes
  | will w =>
      refine h.unchecked client w ?_
      rw [heq]
      exact mem_append_left _ hallowed

lemma Fresh.inv (h : v.Fresh) : v.Inv :=
  ⟨h.awaits.imp fun _ hfalse => hfalse.elim, by simp [h.log]⟩

/-- In a run every routed message was authorised before it was routed iff no close of the run
finds a stored will. -/
theorem authorised_iff (v : Verticle) (hfresh : v.Fresh) (ops : List Op) (t : Verticle)
    (hrun : run step v ops = some t) :
    Authorised t.log ↔ AllSteps step NoStoredWill v ops := by
  have hinit : Authorised v.log := by
    rw [hfresh.log]
    intro front origin back heq
    simp at heq
  constructor
  · intro ha
    by_contra hall
    have hsome : SomeStep step (fun v op => ¬v.NoStoredWill op) v ops := by
      by_contra hnot
      exact hall ((not_someStep.1 hnot).imp fun v op h => not_not.1 h)
    -- one close with a stored will is enough: what it routed stays in the log to the end of the run
    obtain ⟨hinv, hwill⟩ := established_run (P := fun _ _ => True) (I := Inv)
      (J := fun v => v.Inv ∧ v.WillRouted) (fun v op v' h _ hstep => h.step hstep)
      (fun v op v' h _ hbad hstep => ⟨h.step hstep, by
        rcases step_cases hstep with ⟨hno, -⟩ | ⟨-, -, will, hlog⟩
        · exact absurd hno hbad
        · exact ⟨will, by rw [hlog]; simp⟩⟩)
      (fun v op v' h _ hstep => ⟨h.1.step hstep, h.2.step hstep⟩) hfresh.inv
      (allSteps_true v ops) hsome hrun
    exact hinv.not_authorised hwill ha
  · intro hall
    have hinv := invariant_run (I := fun v => v.Inv ∧ Authorised v.log)
      (fun v op v' _ h hno hstep => ⟨h.1.step hstep, h.1.authorised_step h.2 hno hstep⟩)
      ⟨hfresh.inv, hinit⟩ hall hrun
    exact hinv.2

lemma fresh_initial (config : MqttConfig) (authService : Option AuthService) :
    (initial config authService).Fresh := by
  refine ⟨rfl, rfl, fun c w hw => ?_, fun c m hm => ?_⟩
  · simp [initial, Broker.initial] at hw
  · simp [initial, Broker.initial] at hm

/-- Nobody may publish to the topic `a`. -/
def denyingRules : AclCache :=
  AclCache.empty.add ⟨0, AclConst.ALL, Target.all.value, ['a'], Access.pub.value,
    Authority.deny.value⟩

/-- A new verticle that answers by `denyingRules`. -/
def denying : Verticle :=
  initial ⟨false, false, 1024, 1024⟩ (some (LocalAuthService.service denyingRules))

def hello : MqttPublishMessage := ⟨['b'], 0, [1], .atMostOnce, false, false⟩

/-- A client publishes and closes. -/
def helloOps : List Op :=
  [.accept ⟨LocalAuthService.sampleClient, none⟩ true, .publish 0 hello, .close 0]

def afterHello : Verticle :=
  ((denying.handleAccept ⟨LocalAuthService.sampleClient, none⟩ true).handlePublish 0
    hello).handleClose 0

theorem authorised_iff_hello :
    Authorised afterHello.log ↔ AllSteps step NoStoredWill denying helloOps :=
  authorised_iff denying (fresh_initial _ _) helloOps afterHello (by rfl)

/-- The will of a client is routed to a topic that the client may not publish to. -/
theorem not_authorised_will :
    ¬∀ (v : Verticle) (ops : List Op) (t : Verticle), v.Fresh → run step v ops = some t →
      Authorised t.log := by
  intro h
  have hauth := h denying [.accept ⟨LocalAuthService.sampleClient,
    some ⟨true, ['a'], [1], .atMostOnce, false⟩⟩ true, .close 0] _ (fresh_initial _ _) rfl
  obtain ⟨-, client, inbound, -, hmem⟩ := hauth [] (.will ⟨0, ['c'], ['a'], [1], .atMostOnce,
    false⟩) [] rfl
  simp at hmem

end Verticle

end Stuart
