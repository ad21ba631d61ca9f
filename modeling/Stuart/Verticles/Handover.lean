/-
The sessions of a broker, as their methods see them.

A method of a wrapper works on the wrapper, on its endpoint and, of a persistent session, on what
is stored.  `Broker.session` puts these together again, so that a theorem about the methods of a
session can be read on the broker (`Inv.session_onRegistered`).

What such theorems ask for is that the packet ids of the endpoints are in their range and that
the queues keep their bound (`Ready`).  A broker that has just started has neither endpoints nor
wrappers, and no operation loses it.
-/
import Stuart.Sessions.Arrival
import Stuart.Verticles.Operations

namespace Stuart

open List Lib

/-- The queue of a transient wrapper keeps its bound. -/
def Wrapper.Bounded : Wrapper → Prop
  | .transient _ queue _ _ => queue.Bounded
  | .persistent _ => True

namespace Broker

variable {b b' : Broker} {clientId c : Str}

/-- The packet ids of the endpoints are in their range, the transient queues keep their bound. -/
structure Ready (b : Broker) : Prop where
  inRange : ∀ id endpoint, b.endpoint id = some endpoint → endpoint.InRange
  bounded : ∀ clientId w, b.wrappers.get clientId = some w → w.Bounded

lemma ready_of_empty (hend : b.endpoints = []) (hw : b.wrappers = ∅) : b.Ready := by
  refine ⟨fun id endpoint h => ?_, fun c w h => ?_⟩
  · simp [Broker.endpoint, hend] at h
  · simp [hw] at h

lemma Ready.getWrapper (h : b.Ready) {w : Wrapper} (hget : b.getWrapper clientId = some w) :
    w.Bounded := by
  rw [getWrapper_eq (valid_of_getWrapper hget)] at hget
  exact h.bounded clientId w hget

lemma Ready.withCache (h : b.Ready) (s : CacheService) : (b.withCache s).Ready :=
  ⟨h.inRange, h.bounded⟩

lemma Ready.setEndpoint (h : b.Ready) (id : ℕ) {endpoint : MqttEndpoint} (hr : endpoint.InRange) :
    (b.setEndpoint id endpoint).Ready := by
  refine ⟨fun id' endpoint' hend => ?_, h.bounded⟩
  have hmem := mem_of_getElem? (show (b.endpoints.set id endpoint)[id']? = _ from hend)
  rcases mem_or_eq_of_mem_set hmem with hold | rfl
  · obtain ⟨j, hj⟩ := mem_iff_getElem?.1 hold
    exact h.inRange j endpoint' hj
  · exact hr

lemma Ready.disconnect (h : b.Ready) (id : ℕ) : (b.disconnect id).Ready := by
  simp only [Broker.disconnect]
  split
  · rename_i endpoint hend
    exact h.setEndpoint id (h.inRange id endpoint hend)
  · exact h

lemma Ready.putWrapper (h : b.Ready) {w : Wrapper} (hw : w.Bounded) :
    (b.putWrapper clientId w).Ready := by
  simp only [Broker.putWrapper]
  split_ifs
  · exact h
  · refine ⟨h.inRange, fun c w' hw' => ?_⟩
    rcases PlainMap.eq_or_get_of_get_put _ hw' with ⟨-, rfl⟩ | hw'
    · exact hw
    · exact h.bounded c w' hw'

lemma Ready.removeWrapper (h : b.Ready) (clientId : Str) : (b.removeWrapper clientId).Ready := by
  simp only [Broker.removeWrapper]
  split_ifs
  · exact h
  · exact ⟨h.inRange, fun c w hw => h.bounded c w (PlainMap.get_of_get_remove _ hw)⟩

/-! ### Methods of a wrapper -/

lemma Ready.onPersistent (h : b.Ready) {fields : WrapperFields}
    {f : SessionWrapper .persistent → SessionWrapper .persistent}
    (hf : ∀ w, SessionWrapper.Kept w (f w)) {w : Wrapper}
    (hon : b.onPersistent fields f = some (w, b')) : w.Bounded ∧ b'.Ready := by
  simp only [Broker.onPersistent] at hon
  split at hon
  · rename_i endpoint queue inflights hend _ _
    simp only [Option.some.injEq, Prod.mk.injEq] at hon
    obtain ⟨rfl, rfl⟩ := hon
    refine ⟨trivial, (h.setEndpoint _ ?_).withCache _⟩
    exact (hf _).inRange (h.inRange _ endpoint hend)
  · cases hon

lemma Ready.onWrapper (h : b.Ready) {f : ∀ {kind}, SessionWrapper kind → SessionWrapper kind}
    (hf : ∀ {kind} (w : SessionWrapper kind), SessionWrapper.Kept w (f w)) {w w' : Wrapper}
    (hw : w.Bounded) (hon : b.onWrapper f w = some (w', b')) : w'.Bounded ∧ b'.Ready := by
  cases w with
  | transient fields queue inflights awaits =>
      simp only [Broker.onWrapper, onTransient] at hon
      split at hon
      · cases hon
      · rename_i endpoint hend
        simp only [Option.some.injEq, Prod.mk.injEq] at hon
        obtain ⟨rfl, rfl⟩ := hon
        have hkept := hf (⟨b.cacheService.config, fields.thisClientId, endpoint, queue, inflights,
          fields.timeouts, fields.ledger⟩ : SessionWrapper .transient)
        exact ⟨(hkept.queue hw).1, h.setEndpoint _ (hkept.inRange (h.inRange _ endpoint hend))⟩
  | persistent fields => exact h.onPersistent hf hon

lemma Ready.onRegistered (h : b.Ready) (clientId : Str)
    {f : ∀ {kind}, SessionWrapper kind → SessionWrapper kind}
    (hf : ∀ {kind} (w : SessionWrapper kind), SessionWrapper.Kept w (f w)) :
    (b.onRegistered clientId f).Ready := by
  simp only [Broker.onRegistered]
  cases hget : b.getWrapper clientId with
  | none => exact h
  | some w =>
      dsimp only
      split
      · rename_i w' b' hon
        obtain ⟨hw', hb'⟩ := h.onWrapper hf (h.getWrapper hget) hon
        exact hb'.putWrapper hw'
      · exact h

lemma Ready.handleLocalPublishMessage (h : b.Ready) (clientId : Str) (message : MqttMessage)
    (qos : MqttQoS) : (b.handleLocalPublishMessage clientId message qos).Ready := by
  simp only [Broker.handleLocalPublishMessage]
  split
  · exact h.onRegistered clientId fun w => SessionWrapper.kept_publishMessage w message qos
  · split_ifs
    · exact (h.withCache _).onRegistered clientId SessionWrapper.kept_publishCachedMessage
    · exact h

lemma Ready.receiveQos2Message (h : b.Ready) (clientId : Str) (awaitMessage : MqttAwaitMessage) :
    (b.receiveQos2Message clientId awaitMessage).Ready := by
  simp only [Broker.receiveQos2Message]
  split
  · exact h
  · rename_i hget
    exact h.putWrapper (show Wrapper.Bounded _ from h.getWrapper hget :)
  · split
    · exact h
    · exact h.withCache _

lemma Ready.releaseQos2Message (h : b.Ready) (clientId : Str) (messageId : ℤ) :
    (b.releaseQos2Message clientId messageId).2.Ready := by
  simp only [Broker.releaseQos2Message]
  split
  · exact h
  · rename_i hget
    exact h.putWrapper (show Wrapper.Bounded _ from h.getWrapper hget :)
  · split
    · exact h
    · exact h.withCache _

/-! ### Connecting and closing -/

lemma Ready.closeEndpoint (h : b.Ready) (w : Wrapper) : (b.closeEndpoint w).Ready := by
  simp only [Broker.closeEndpoint]
  split_ifs
  · exact h.disconnect _
  · exact h

lemma Ready.closeWrapper (h : b.Ready) (w : Wrapper) : (b.closeWrapper w).Ready := by
  have hclose := h.closeEndpoint w
  simp only [Broker.closeWrapper]
  cases w with
  | transient fields => exact hclose.withCache _
  | persistent fields => exact hclose.withCache _

lemma Ready.teardown (h : b.Ready) (clientId : Str) (cleanSession isPersistent : Bool)
    (old : Option Wrapper) : (b.teardown clientId cleanSession isPersistent old).Ready := by
  cases old with
  | none =>
      unfold Broker.teardown
      dsimp only
      split_ifs
      · exact h.withCache _
      · exact h.withCache _
      · exact h
  | some w =>
      unfold Broker.teardown
      dsimp only
      split_ifs
      · exact h.closeWrapper w
      · exact h.closeEndpoint w
      · exact h.closeWrapper w

lemma Ready.buildWrapper (h : b.Ready) (clientId : Str) (id : ℕ) (cleanSession isPersistent : Bool)
    {old : Option Wrapper} (hold : ∀ w, old = some w → w.Bounded) :
    (b.buildWrapper clientId id cleanSession isPersistent old).1.Bounded ∧
      (b.buildWrapper clientId id cleanSession isPersistent old).2.Ready := by
  simp only [Broker.buildWrapper]
  split_ifs with hclean hpers
  · exact ⟨fun hpos => Int.le_of_lt hpos, h⟩
  · cases old with
    | none => exact ⟨trivial, h.withCache _⟩
    | some w =>
        have hw := hold w rfl
        cases w with
        | transient => exact ⟨hw, h⟩
        | persistent => exact ⟨trivial, h⟩
  · cases old with
    | none => exact ⟨trivial, h.withCache _⟩
    | some w => exact ⟨trivial, h.withCache _⟩

lemma Ready.openWrapper (h : b.Ready) {w : Wrapper} (hw : w.Bounded) :
    (∀ w', (b.openWrapper w).1 = some w' → w'.Bounded) ∧ (b.openWrapper w).2.Ready := by
  cases w with
  | transient => exact ⟨fun w' hw' => Option.some.inj hw' ▸ hw, h⟩
  | persistent fields =>
      have hinit := h.withCache (b.cacheService.initPersistentSession fields.thisClientId)
      unfold Broker.openWrapper
      dsimp only
      split
      · rename_i w' b' hon
        obtain ⟨hw', hb'⟩ := hinit.onPersistent PersistentSessionWrapper.kept_openWrapper hon
        exact ⟨fun w hw => Option.some.inj hw ▸ hw', hb'⟩
      · exact ⟨fun w' hw' => absurd hw' (by simp), hinit⟩

lemma Ready.openSession (h : b.Ready) (clientId : Str) (id : ℕ) (cleanSession : Bool) :
    (b.openSession clientId id cleanSession).Ready := by
  have hold : ∀ w, (b.takeWrapper clientId cleanSession).1 = some w → w.Bounded :=
    fun w hw => h.getWrapper hw
  have htake : (b.takeWrapper clientId cleanSession).2.Ready :=
    (h.removeWrapper clientId).withCache _
  have htear := htake.teardown clientId cleanSession (b.cacheService.isPersistentSession clientId)
    (b.takeWrapper clientId cleanSession).1
  obtain ⟨hw, hb⟩ := htear.buildWrapper clientId id cleanSession
    (b.cacheService.isPersistentSession clientId) hold
  obtain ⟨hopen, hb'⟩ := hb.openWrapper hw
  unfold Broker.openSession
  dsimp only
  split
  · rename_i w b' heq
    rw [heq] at hopen hb'
    exact hb'.putWrapper (hopen w rfl)
  · rename_i b' heq
    rw [heq] at hb'
    exact hb'

lemma Ready.accept (h : b.Ready) (id : ℕ) : (b.accept id).Ready := by
  simp only [Broker.accept]
  split
  · exact h
  · rename_i endpoint hend
    split
    · rename_i endpoint' haccept
      obtain ⟨-, rfl⟩ := MqttEndpoint.eq_of_accept haccept
      exact h.setEndpoint _ (h.inRange id endpoint hend)
    · exact h

lemma Ready.handleAccept (h : b.Ready) (clientId : Str) (cleanSession : Bool) :
    (b.handleAccept clientId cleanSession).2.Ready := by
  have hadd : (b.addEndpoint clientId cleanSession).Ready := by
    refine ⟨fun id endpoint hend => ?_, h.bounded⟩
    rcases mem_append.1 (mem_of_getElem? (show (b.endpoints ++ _)[id]? = _ from hend)) with
      hold | hnew
    · obtain ⟨j, hj⟩ := mem_iff_getElem?.1 hold
      exact h.inRange j endpoint hj
    · obtain rfl := mem_singleton.1 hnew
      exact MqttEndpoint.inRange_create _ _ _
  exact (hadd.openSession clientId _ cleanSession).accept _

lemma Ready.closeSession (h : b.Ready) (id : ℕ) : (b.closeSession id).Ready := by
  simp only [Broker.closeSession]
  split
  · exact h
  · rename_i endpoint _
    split_ifs
    · have hremove := h.removeWrapper endpoint.clientIdentifier
      rcases closeLocked_cases (b := b) endpoint id with
        ⟨-, heq⟩ | ⟨-, -, -, ⟨-, heq⟩ | ⟨-, heq⟩⟩
      · rw [heq]
        exact h
      · rw [heq]
        exact hremove
      · rw [heq]
        exact hremove.withCache _
    · exact h

/-- Whatever the broker does, it stays ready. -/
lemma Ready.perform (h : b.Ready) (operation : Operation) : (b.perform operation).Ready := by
  cases operation with
  | op op =>
      cases op with
      | connect clientId cleanSession =>
          simp only [Broker.perform, Broker.step]
          split_ifs
          · exact h.handleAccept clientId cleanSession
          · exact h
      | close id => exact (h.disconnect id).closeSession id
      | subscribeTopic clientId topic qos =>
          simp only [Broker.perform, Broker.step, Broker.subscribeTopic]
          split
          · exact h
          · exact h.withCache _
      | unsubscribeTopic clientId topic =>
          simp only [Broker.perform, Broker.step, Broker.unsubscribeTopic]
          split
          · exact h
          · exact h.withCache _
      | publish clientId message qos => exact h.handleLocalPublishMessage clientId message qos
      | receiveQos2 clientId awaitMessage => exact h.receiveQos2Message clientId awaitMessage
  | call clientId method => exact h.onRegistered clientId method.kept_call
  | releaseQos2 clientId messageId => exact h.releaseQos2Message clientId messageId

/-- What every operation keeps. -/
structure Working (b : Broker) : Prop where
  inv : b.Inv
  ready : b.Ready

lemma working_initial (config : Config) (nodeId : UUID) : (initial config nodeId).Working :=
  ⟨(restarted_initial config nodeId).inv, ready_of_empty rfl rfl⟩

lemma Working.perform (h : b.Working) (operation : Operation) : (b.perform operation).Working :=
  ⟨h.inv.perform operation, h.ready.perform operation⟩

/-- In every run of operations the broker works. -/
lemma Working.foldl (h : b.Working) (operations : List Operation) :
    (operations.foldl Broker.perform b).Working := by
  induction operations generalizing b with
  | nil => exact h
  | cons operation operations ih => exact ih (h.perform operation)

lemma Working.call (h : b.Working) (clientId : Str) (method : SessionMethod) :
    (b.onRegistered clientId method.call).Working := h.perform (.call clientId method)

lemma Working.handleLocalPublishMessage (h : b.Working) (clientId : Str) (message : MqttMessage)
    (qos : MqttQoS) : (b.handleLocalPublishMessage clientId message qos).Working :=
  h.perform (.op (.publish clientId message qos))

lemma Working.saveRouter (h : b.Working) (clientId topic : Str) (qos : ℤ) :
    (b.withCache (b.cacheService.saveRouter clientId topic qos)).Working :=
  ⟨h.inv.saveRouter clientId topic qos, h.ready.withCache _⟩

lemma Working.deleteRouter (h : b.Working) (clientId topic : Str) :
    (b.withCache (b.cacheService.deleteRouter clientId topic)).Working :=
  ⟨h.inv.deleteRouter clientId topic, h.ready.withCache _⟩

/-! ### The session of a client -/

/-- The session of a wrapper: the wrapper, its endpoint and, if it is persistent, what is stored of
it. -/
def wrapperSession (b : Broker) : Wrapper → Option ((kind : SessionKind) × SessionWrapper kind)
  | .transient fields queue inflights _ =>
      (b.endpoint fields.endpoint).map fun endpoint => ⟨.transient, b.cacheService.config,
        fields.thisClientId, endpoint, queue, inflights, fields.timeouts, fields.ledger⟩
  | .persistent fields =>
      match b.endpoint fields.endpoint, b.cacheService.queueCache.get fields.thisClientId,
          b.cacheService.inflightCache.get fields.thisClientId with
      | some endpoint, some queue, some inflights => some ⟨.persistent, b.cacheService.config,
          fields.thisClientId, endpoint, queue, inflights, fields.timeouts, fields.ledger⟩
      | _, _, _ => none

/-- The session of the registered wrapper of a client. -/
def session (b : Broker) (clientId : Str) : Option ((kind : SessionKind) × SessionWrapper kind) :=
  (b.getWrapper clientId).bind b.wrapperSession

lemma wrapperSession_transient {fields : WrapperFields} {endpoint : MqttEndpoint}
    (hend : b.endpoint fields.endpoint = some endpoint) (queue : BoundedQueue MqttMessage)
    (inflights : PlainMap ℤ MqttMessage) (awaits : PlainMap ℤ MqttAwaitMessage) :
    b.wrapperSession (.transient fields queue inflights awaits) = some ⟨.transient,
      b.cacheService.config, fields.thisClientId, endpoint, queue, inflights, fields.timeouts,
      fields.ledger⟩ := by
  simp only [wrapperSession, hend, Option.map_some]

lemma wrapperSession_persistent {fields : WrapperFields} {endpoint : MqttEndpoint}
    {queue : BoundedQueue MqttMessage} {inflights : BoundedIgniteMapUnsafe ℤ MqttMessage}
    (hend : b.endpoint fields.endpoint = some endpoint)
    (hq : (b.cacheService.data fields.thisClientId).queue = some queue)
    (hi : (b.cacheService.data fields.thisClientId).inflights = some inflights) :
    b.wrapperSession (.persistent fields) = some ⟨.persistent, b.cacheService.config,
      fields.thisClientId, endpoint, queue, inflights, fields.timeouts, fields.ledger⟩ := by
  have hq' : b.cacheService.queueCache.get fields.thisClientId = some queue := hq
  have hi' : b.cacheService.inflightCache.get fields.thisClientId = some inflights := hi
  simp only [wrapperSession, hend, hq', hi']

/-- A method of a wrapper, on sessions. -/
def onSession (f : ∀ {kind}, SessionWrapper kind → SessionWrapper kind) :
    (kind : SessionKind) × SessionWrapper kind → (kind : SessionKind) × SessionWrapper kind
  | ⟨kind, w⟩ => ⟨kind, f w⟩

/-- A registered wrapper has a session, which keeps to its bounds. -/
lemma Working.exists_session (h : b.Working) {w : Wrapper} (hget : b.getWrapper c = some w) :
    ∃ (kind : SessionKind) (s : SessionWrapper kind),
      b.session c = some ⟨kind, s⟩ ∧ s.queue.Bounded ∧ s.endpoint.InRange := by
  have hl := h.inv.live_of_getWrapper hget
  simp only [session, hget, Option.bind_some]
  cases w with
  | transient fields queue inflights awaits =>
      obtain ⟨endpoint, hend, -⟩ := Option.map_eq_some_iff.1 hl.owner
      exact ⟨_, _, wrapperSession_transient hend queue inflights awaits,
        h.ready.getWrapper hget, h.ready.inRange _ endpoint hend⟩
  | persistent fields =>
      have hclient : fields.thisClientId = c := hl.client
      obtain ⟨endpoint, queue, inflights, hend, hq, hi, hb, -⟩ :=
        h.inv.onRegistered_of_persistent (f := id) hget
      rw [← hclient] at hq hi
      exact ⟨_, _, wrapperSession_persistent hend hq hi, hb, h.ready.inRange _ endpoint hend⟩

/-- The session of a wrapper that has just been registered. -/
lemma session_putWrapper (hv : IdUtil.validateClientId c = true) (w : Wrapper) :
    (b.putWrapper c w).session c = b.wrapperSession w := by
  have hget : (b.putWrapper c w).getWrapper c = some w := by
    rw [getWrapper_eq hv, putWrapper_eq hv]
    exact PlainMap.get_put_self _ _ _
  simp only [session, hget, Option.bind_some]
  rw [putWrapper_eq hv]
  rfl

lemma data_storeSession_self {s : CacheService} (queue : BoundedQueue MqttMessage)
    (inflights : BoundedIgniteMapUnsafe ℤ MqttMessage) :
    (s.storeSession c queue inflights).data c =
      { s.data c with queue := some queue, inflights := some inflights } :=
  (CacheService.data_storeSession queue inflights c).trans (if_pos rfl)

section OnRegistered

variable {f : ∀ {kind}, SessionWrapper kind → SessionWrapper kind}

/-- A method leaves the configuration and the client of a wrapper. -/
lemma onSession_eq (hf : ∀ {kind} (w : SessionWrapper kind), SessionWrapper.Kept w (f w))
    {kind : SessionKind} (w : SessionWrapper kind) :
    onSession f ⟨kind, w⟩ = ⟨kind, w.config, w.thisClientId, (f w).endpoint, (f w).queue,
      (f w).inflights, (f w).timeouts, (f w).ledger⟩ := by
  have hkept := hf w
  rw [← hkept.config, ← hkept.thisClientId]
  rfl

/-- A method of the registered wrapper is one of the session. -/
lemma Inv.session_onRegistered (h : b.Inv)
    (hf : ∀ {kind} (w : SessionWrapper kind), SessionWrapper.Kept w (f w)) (c : Str) :
    (b.onRegistered c f).session c = (b.session c).map (onSession f) := by
  cases hget : b.getWrapper c with
  | none => simp only [Broker.onRegistered, session, hget, Option.bind_none, Option.map_none]
  | some w =>
      have hv := valid_of_getWrapper hget
      have hl := h.live_of_getWrapper hget
      cases w with
      | transient fields queue inflights awaits =>
          obtain rfl : fields.thisClientId = c := hl.client
          obtain ⟨endpoint, hend, hon⟩ := h.onRegistered_of_transient (f := f) hget
          rw [hon, session_putWrapper hv, session, hget, Option.bind_some,
            wrapperSession_transient hend, Option.map_some, onSession_eq hf]
          refine @wrapperSession_transient _ { fields with timeouts := _, ledger := _ } _ ?_ _ _
            awaits
          exact (endpoint_setEndpoint hend _).trans (if_pos rfl)
      | persistent fields =>
          obtain rfl : fields.thisClientId = c := hl.client
          obtain ⟨endpoint, queue, inflights, hend, hq, hi, -, hon⟩ :=
            h.onRegistered_of_persistent (f := f) hget
          rw [hon, session_putWrapper hv, session, hget, Option.bind_some,
            wrapperSession_persistent hend hq hi, Option.map_some, onSession_eq hf]
          refine @wrapperSession_persistent _ { fields with timeouts := _, ledger := _ } _ _ _ ?_
            ?_ ?_
          · exact (endpoint_setEndpoint hend _).trans (if_pos rfl)
          · exact congrArg ClientData.queue (data_storeSession_self _ _)
          · exact congrArg ClientData.inflights (data_storeSession_self _ _)

end OnRegistered

/-! ### A message comes to a session -/

/-- **A message that is handed over to a connected client.** -/
lemma Working.gets_handleLocalPublishMessage (h : b.Working) {kind : SessionKind}
    {w : SessionWrapper kind} (hs : b.session c = some ⟨kind, w⟩) (message : MqttMessage)
    (qos : MqttQoS) : ∃ w' : SessionWrapper kind,
      (b.handleLocalPublishMessage c message qos).session c = some ⟨kind, w'⟩ ∧
        SessionWrapper.Gets w w' (w.copyMqttMessage message qos) := by
  obtain ⟨wrapper, hget, -⟩ := Option.bind_eq_some_iff.1 hs
  obtain ⟨kind', w', hs', hb, hr⟩ := h.exists_session hget
  cases (hs.symm.trans hs')
  refine ⟨w.publishMessage message qos, ?_, SessionWrapper.gets_publishMessage hb hr message qos⟩
  simp only [Broker.handleLocalPublishMessage, hget]
  rw [h.inv.session_onRegistered (fun w => SessionWrapper.kept_publishMessage w message qos), hs]
  rfl

end Broker

end Stuart
