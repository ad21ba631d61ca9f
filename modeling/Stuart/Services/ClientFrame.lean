/-
An operation on one client leaves the others alone.

`CacheService.SameElse` and `Broker.SameElse` say what every part of `openSession` and
`closeSession` keeps: the data and the wrappers of all other clients, which connection belongs to
whom, and the consistency of the router cache.  Both relations compose.  Beside them stand the
lemmas that say what each part does to its own client, one for each part.
-/
import Stuart.Lib.Runs
import Stuart.Services.SessionService
import Stuart.Sessions.SessionFrame

namespace Stuart

open List Lib

namespace CacheService

/-- The two cache services differ at most in the data of one client. -/
structure SameElse (s s' : CacheService) (clientId : Str) : Prop where
  config : s'.config = s.config
  thisNodeId : s'.thisNodeId = s.thisNodeId
  data : ∀ c, c ≠ clientId → s'.data c = s.data c
  routers : s.routerCache.Consistent → s'.routerCache.Consistent

variable {s s' s'' : CacheService} {clientId : Str}

lemma SameElse.refl (s : CacheService) (clientId : Str) : SameElse s s clientId :=
  ⟨rfl, rfl, fun _ _ => rfl, id⟩

lemma SameElse.trans (h : SameElse s s' clientId) (h' : SameElse s' s'' clientId) :
    SameElse s s'' clientId :=
  ⟨h'.config.trans h.config, h'.thisNodeId.trans h.thisNodeId,
    fun c hc => (h'.data c hc).trans (h.data c hc), fun hr => h'.routers (h.routers hr)⟩

lemma sameElse_saveSession (session : MqttSession)
    (hv : IdUtil.validateClientId session.clientId = true) :
    SameElse s (s.saveSession session) session.clientId := by
  have hdata := data_saveSession (s := s) session hv
  simp only [saveSession] at hdata ⊢
  rw [if_neg (by simp [hv])] at hdata ⊢
  exact ⟨rfl, rfl, fun c hc => (hdata c).trans (if_neg hc), id⟩

lemma sameElse_deleteSession (hv : IdUtil.validateClientId clientId = true) :
    SameElse s (s.deleteSession clientId) clientId := by
  have hdata := data_deleteSession (s := s) hv
  simp only [deleteSession] at hdata ⊢
  rw [if_neg (by simp [hv])] at hdata ⊢
  exact ⟨rfl, rfl, fun c hc => (hdata c).trans (if_neg hc), id⟩

lemma sameElse_destroyTransientSession (hr : s.routerCache.Consistent)
    (hv : IdUtil.validateClientId clientId = true) :
    SameElse s (s.destroyTransientSession clientId) clientId :=
  ⟨rfl, rfl, fun c hc => (data_destroyTransientSession hr hv c).trans (if_neg hc),
    fun h => h.deleteClient clientId⟩

lemma sameElse_destroyPersistentSession (hr : s.routerCache.Consistent)
    (hv : IdUtil.validateClientId clientId = true) :
    SameElse s (s.destroyPersistentSession clientId) clientId :=
  ⟨rfl, rfl, fun c hc => (data_destroyPersistentSession hr hv c).trans (if_neg hc),
    fun h => h.deleteClient clientId⟩

lemma sameElse_initPersistentSession (hr : s.routerCache.Consistent) :
    SameElse s (s.initPersistentSession clientId) clientId :=
  ⟨rfl, rfl, fun c hc => (data_initPersistentSession hr c).trans (if_neg hc),
    fun h => h.update clientId s.thisNodeId⟩

lemma sameElse_openAwait : SameElse s (s.openAwait clientId).2 clientId :=
  ⟨rfl, rfl, fun c hc => (data_openAwait c).trans (if_neg hc), id⟩

lemma sameElse_openInflight : SameElse s (s.openInflight clientId).2 clientId :=
  ⟨rfl, rfl, fun c hc => (data_openInflight c).trans (if_neg hc), id⟩

lemma sameElse_openQueue : SameElse s (s.openQueue clientId).2 clientId :=
  ⟨rfl, rfl, fun c hc => (data_openQueue c).trans (if_neg hc), id⟩

lemma sameElse_enqueue (message : MqttMessage) (qos : MqttQoS) :
    SameElse s (s.enqueue message clientId qos).2 clientId := by
  have hdata : ∀ c, c ≠ clientId → (s.enqueue message clientId qos).2.data c = s.data c := by
    intro c hc
    rcases @data_enqueue s clientId message qos c with h | ⟨heq, -⟩
    · exact h
    · exact absurd heq hc
  simp only [enqueue] at hdata ⊢
  split_ifs at hdata ⊢
  · exact SameElse.refl s clientId
  · exact SameElse.refl s clientId
  · cases hget : s.queueCache.get clientId with
    | none => exact SameElse.refl s clientId
    | some queue =>
        rw [hget] at hdata
        exact ⟨rfl, rfl, hdata, id⟩

/-- The await messages of a client are replaced. -/
lemma sameElse_putAwaits (s : CacheService) (clientId : Str)
    (awaits : BoundedIgniteMap ℤ MqttAwaitMessage) :
    SameElse s { s with awaitCache := s.awaitCache.put clientId awaits } clientId := by
  refine ⟨rfl, rfl, fun c hc => ?_, id⟩
  simp only [data, PlainMap.get_put_of_ne _ hc]

lemma sameElse_saveRouter (hr : s.routerCache.Consistent) (topic : Str) (qos : ℤ) :
    SameElse s (s.saveRouter clientId topic qos) clientId :=
  ⟨rfl, rfl, fun c hc => (data_saveRouter hr topic qos c).trans (if_neg fun h => hc h.1),
    fun h => h.save _⟩

lemma sameElse_deleteRouter (hr : s.routerCache.Consistent) (topic : Str) :
    SameElse s (s.deleteRouter clientId topic) clientId :=
  ⟨rfl, rfl, fun c hc => (data_deleteRouter hr topic c).trans (if_neg hc),
    fun h => h.delete clientId topic⟩

end CacheService

namespace Broker

/-- Whose connection this is, and its cleanSession flag. -/
def owner (b : Broker) (id : ℕ) : Option (Str × Bool) :=
  (b.endpoint id).map fun endpoint => (endpoint.clientIdentifier, endpoint.isCleanSession)

/-- The two brokers differ at most in what belongs to one client. -/
structure SameElse (b b' : Broker) (clientId : Str) : Prop where
  cache : CacheService.SameElse b.cacheService b'.cacheService clientId
  wrappers : ∀ c, c ≠ clientId → b'.wrappers.get c = b.wrappers.get c
  owner : ∀ id, b'.owner id = b.owner id

variable {b b' b'' : Broker} {clientId : Str}

lemma SameElse.refl (b : Broker) (clientId : Str) : SameElse b b clientId :=
  ⟨.refl _ _, fun _ _ => rfl, fun _ => rfl⟩

lemma SameElse.trans (h : SameElse b b' clientId) (h' : SameElse b' b'' clientId) :
    SameElse b b'' clientId :=
  ⟨h.cache.trans h'.cache, fun c hc => (h'.wrappers c hc).trans (h.wrappers c hc),
    fun id => (h'.owner id).trans (h.owner id)⟩

lemma SameElse.withCache {cacheService : CacheService}
    (h : CacheService.SameElse b.cacheService cacheService clientId) :
    SameElse b (b.withCache cacheService) clientId :=
  ⟨h, fun _ _ => rfl, fun _ => rfl⟩

/-! ### Endpoints -/

lemma endpoint_setEndpoint {id : ℕ} {endpoint old : MqttEndpoint} (hold : b.endpoint id = some old)
    (id' : ℕ) :
    (b.setEndpoint id endpoint).endpoint id' =
      if id' = id then some endpoint else b.endpoint id' :=
  getElem?_set_of_some hold endpoint id'

/-- An endpoint that is replaced by one of the same client. -/
lemma sameElse_setEndpoint {id : ℕ} (endpoint : MqttEndpoint) {old : MqttEndpoint}
    (hold : b.endpoint id = some old) (hclient : endpoint.clientIdentifier = old.clientIdentifier)
    (hclean : endpoint.isCleanSession = old.isCleanSession) (clientId : Str) :
    SameElse b (b.setEndpoint id endpoint) clientId := by
  refine ⟨.refl _ _, fun _ _ => rfl, fun id' => ?_⟩
  simp only [Broker.owner]
  rw [endpoint_setEndpoint hold]
  split_ifs with heq
  · rw [heq, hold, Option.map_some, Option.map_some, hclient, hclean]
  · rfl

lemma setEndpoint_self {id : ℕ} {endpoint : MqttEndpoint} (h : b.endpoint id = some endpoint) :
    b.setEndpoint id endpoint = b := by
  obtain ⟨hlt, hget⟩ := List.getElem?_eq_some_iff.1 h
  simp only [setEndpoint]
  rw [← hget, set_getElem_self hlt]

lemma sameElse_disconnect (id : ℕ) (clientId : Str) : SameElse b (b.disconnect id) clientId := by
  simp only [disconnect]
  cases hget : b.endpoint id with
  | none => exact SameElse.refl b clientId
  | some endpoint => exact sameElse_setEndpoint endpoint.close hget rfl rfl clientId

@[simp] lemma disconnect_cacheService (id : ℕ) :
    (b.disconnect id).cacheService = b.cacheService := by
  simp only [disconnect]
  split <;> rfl

@[simp] lemma disconnect_wrappers (id : ℕ) : (b.disconnect id).wrappers = b.wrappers := by
  simp only [disconnect]
  split <;> rfl

@[simp] lemma closeEndpoint_cacheService (w : Wrapper) :
    (b.closeEndpoint w).cacheService = b.cacheService := by
  simp only [closeEndpoint]
  split_ifs
  · exact disconnect_cacheService _
  · rfl

@[simp] lemma closeEndpoint_wrappers (w : Wrapper) :
    (b.closeEndpoint w).wrappers = b.wrappers := by
  simp only [closeEndpoint]
  split_ifs
  · exact disconnect_wrappers _
  · rfl

lemma sameElse_closeEndpoint (w : Wrapper) (clientId : Str) :
    SameElse b (b.closeEndpoint w) clientId := by
  simp only [closeEndpoint]
  split_ifs
  · exact sameElse_disconnect _ clientId
  · exact SameElse.refl b clientId

lemma sameElse_accept (id : ℕ) (clientId : Str) : SameElse b (b.accept id) clientId := by
  simp only [accept]
  cases hget : b.endpoint id with
  | none => exact SameElse.refl b clientId
  | some endpoint =>
      cases hacc : endpoint.accept with
      | none =>
          simp only [hacc]
          exact SameElse.refl b clientId
      | some endpoint' =>
          obtain ⟨-, heq⟩ := MqttEndpoint.eq_of_accept hacc
          simp only [hacc]
          exact sameElse_setEndpoint endpoint' hget (by rw [heq]) (by rw [heq]) clientId

@[simp] lemma accept_cacheService (id : ℕ) : (b.accept id).cacheService = b.cacheService := by
  simp only [accept]
  split
  · rfl
  · split <;> rfl

@[simp] lemma accept_wrappers (id : ℕ) : (b.accept id).wrappers = b.wrappers := by
  simp only [accept]
  split
  · rfl
  · split <;> rfl

/-! ### The container -/

section Container

variable (hv : IdUtil.validateClientId clientId = true)

include hv

lemma getWrapper_eq : b.getWrapper clientId = b.wrappers.get clientId := if_neg (by simp [hv])

lemma putWrapper_eq (w : Wrapper) :
    b.putWrapper clientId w = { b with wrappers := b.wrappers.put clientId w } :=
  if_neg (by simp [hv])

lemma removeWrapper_eq :
    b.removeWrapper clientId = { b with wrappers := b.wrappers.remove clientId } :=
  if_neg (by simp [hv])

lemma sameElse_putWrapper (w : Wrapper) : SameElse b (b.putWrapper clientId w) clientId := by
  rw [putWrapper_eq hv]
  exact ⟨.refl _ _, fun c hc => PlainMap.get_put_of_ne _ hc w, fun _ => rfl⟩

lemma sameElse_removeWrapper : SameElse b (b.removeWrapper clientId) clientId := by
  rw [removeWrapper_eq hv]
  exact ⟨.refl _ _, fun c hc => PlainMap.get_remove_of_ne _ hc, fun _ => rfl⟩

end Container

/-! ### The locked section and the teardown -/

/-- What the locked section of `openSession` does. -/
lemma takeWrapper_spec (hv : IdUtil.validateClientId clientId = true) (cleanSession : Bool) :
    (b.takeWrapper clientId cleanSession).1 = b.wrappers.get clientId ∧
      SameElse b (b.takeWrapper clientId cleanSession).2 clientId ∧
      (b.takeWrapper clientId cleanSession).2.wrappers.get clientId = none ∧
      (b.takeWrapper clientId cleanSession).2.endpoints = b.endpoints ∧
      (b.takeWrapper clientId cleanSession).2.cacheService.data clientId =
        { b.cacheService.data clientId with
          session := some ⟨clientId, cleanSession, b.cacheService.thisNodeId⟩ } := by
  simp only [takeWrapper, saveSession]
  rw [removeWrapper_eq hv, getWrapper_eq hv]
  refine ⟨rfl, ?_, PlainMap.get_remove_self _ _, rfl, ?_⟩
  · have hsave := CacheService.sameElse_saveSession (s := b.cacheService)
      ⟨clientId, cleanSession, b.cacheService.thisNodeId⟩ hv
    exact ⟨hsave, fun c hc => PlainMap.get_remove_of_ne _ hc, fun _ => rfl⟩
  · exact (CacheService.data_saveSession _ hv clientId).trans (if_pos rfl)

/-- What is left of the old wrapper before the caches are touched: its endpoint is closed. -/
def closeOld (b : Broker) : Option Wrapper → Broker
  | some wrapper => b.closeEndpoint wrapper
  | none => b

/-- The teardown closes the old endpoint; unless a persistent session goes on it destroys the old
session, as a transient one only if the old wrapper was transient, or if there was none and the
record was not persistent. -/
lemma teardown_cases {cleanSession isPersistent : Bool} {old : Option Wrapper}
    (hold : ∀ w, old = some w → w.fields.thisClientId = clientId) :
    cleanSession = false ∧ isPersistent = true ∧
        b.teardown clientId cleanSession isPersistent old = b.closeOld old ∨
      (cleanSession = true ∨ isPersistent = false) ∧
        (b.teardown clientId cleanSession isPersistent old = (b.closeOld old).withCache
            (b.cacheService.destroyPersistentSession clientId) ∨
          (∀ w, old = some w → w.kind = .transient) ∧ (old = none → isPersistent = false) ∧
            b.teardown clientId cleanSession isPersistent old = (b.closeOld old).withCache
              (b.cacheService.destroyTransientSession clientId)) := by
  cases old with
  | none => cases cleanSession <;> cases isPersistent <;> simp [teardown, closeOld]
  | some w =>
      have hclient := hold w rfl
      -- the old wrapper decides as what kind of session its state is destroyed
      have hclose : b.closeWrapper w = (b.closeOld (some w)).withCache
            (b.cacheService.destroyPersistentSession clientId) ∨
          w.kind = .transient ∧ b.closeWrapper w = (b.closeOld (some w)).withCache
            (b.cacheService.destroyTransientSession clientId) := by
        cases w with
        | transient fields queue inflights awaits =>
            refine Or.inr ⟨rfl, ?_⟩
            rw [← hclient]
            simp [closeWrapper, closeOld, Wrapper.fields]
        | persistent fields =>
            refine Or.inl ?_
            rw [← hclient]
            simp [closeWrapper, closeOld, Wrapper.fields]
      cases cleanSession <;> cases isPersistent <;> simp [teardown, closeOld] at hclose ⊢ <;>
        exact hclose

lemma sameElse_closeOld (old : Option Wrapper) (clientId : Str) :
    SameElse b (b.closeOld old) clientId := by
  cases old with
  | none => exact SameElse.refl b clientId
  | some w => exact sameElse_closeEndpoint w clientId

@[simp] lemma closeOld_cacheService (old : Option Wrapper) :
    (b.closeOld old).cacheService = b.cacheService := by
  cases old with
  | none => rfl
  | some w => exact closeEndpoint_cacheService w

@[simp] lemma closeOld_wrappers (old : Option Wrapper) :
    (b.closeOld old).wrappers = b.wrappers := by
  cases old with
  | none => rfl
  | some w => exact closeEndpoint_wrappers w

/-- What the teardown does to the wrappers, the record and the routers. -/
lemma teardown_spec (hr : b.cacheService.routerCache.Consistent)
    (hv : IdUtil.validateClientId clientId = true) {cleanSession isPersistent : Bool}
    {old : Option Wrapper} (hold : ∀ w, old = some w → w.fields.thisClientId = clientId)
    (hb' : b.teardown clientId cleanSession isPersistent old = b') :
    SameElse b b' clientId ∧ b'.wrappers = b.wrappers ∧
      b'.endpoints = (b.closeOld old).endpoints ∧
      (b'.cacheService.data clientId).session = (b.cacheService.data clientId).session ∧
      (b'.cacheService.data clientId).routers = if cleanSession = true ∨ isPersistent = false
        then fun _ => none else (b.cacheService.data clientId).routers := by
  have hclosed := sameElse_closeOld (b := b) old clientId
  have hcache : (b.closeOld old).cacheService = b.cacheService := closeOld_cacheService old
  rcases @teardown_cases b clientId cleanSession isPersistent old hold with
    ⟨hclean, hpers, h⟩ | ⟨hdestroy, h | ⟨-, -, h⟩⟩
  · obtain rfl := hb'.symm.trans h
    refine ⟨hclosed, closeOld_wrappers old, rfl, ?_, ?_⟩
    · rw [hcache]
    · rw [hcache, if_neg (by simp [hclean, hpers])]
  · obtain rfl := hb'.symm.trans h
    have hdata := CacheService.data_destroyPersistentSession hr hv clientId
    rw [if_pos rfl] at hdata
    refine ⟨hclosed.trans (SameElse.withCache ?_), closeOld_wrappers old, rfl, ?_, ?_⟩
    · rw [hcache]
      exact CacheService.sameElse_destroyPersistentSession hr hv
    · show ((b.cacheService.destroyPersistentSession clientId).data clientId).session = _
      rw [hdata]
    · show ((b.cacheService.destroyPersistentSession clientId).data clientId).routers = _
      rw [hdata, if_pos hdestroy]
  · obtain rfl := hb'.symm.trans h
    have hdata := CacheService.data_destroyTransientSession hr hv clientId
    rw [if_pos rfl] at hdata
    refine ⟨hclosed.trans (SameElse.withCache ?_), closeOld_wrappers old, rfl, ?_, ?_⟩
    · rw [hcache]
      exact CacheService.sameElse_destroyTransientSession hr hv
    · show ((b.cacheService.destroyTransientSession clientId).data clientId).session = _
      rw [hdata]
    · show ((b.cacheService.destroyTransientSession clientId).data clientId).routers = _
      rw [hdata, if_pos hdestroy]

/-! ### closeSession -/

/-- What the locked part of `closeSession` can do: nothing, unless the registered wrapper holds the
endpoint that is closed.  Then the wrapper goes, and with a clean session of this node everything
else of it. -/
lemma closeLocked_cases (endpoint : MqttEndpoint) (id : ℕ) :
    (∀ w, b.getWrapper endpoint.clientIdentifier = some w → w.endpoint ≠ id) ∧
        b.closeLocked endpoint id = b ∨
      ∃ w, b.getWrapper endpoint.clientIdentifier = some w ∧ w.endpoint = id ∧
        ((∀ session, b.cacheService.getSession endpoint.clientIdentifier = some session →
            endpoint.isCleanSession = true → b.cacheService.thisNodeId ≠ session.nodeId) ∧
          b.closeLocked endpoint id = b.removeWrapper endpoint.clientIdentifier ∨
        endpoint.isCleanSession = true ∧
          b.closeLocked endpoint id = (b.removeWrapper endpoint.clientIdentifier).withCache
            ((b.cacheService.destroyTransientSession endpoint.clientIdentifier).deleteSession
              endpoint.clientIdentifier)) := by
  rw [closeLocked]
  dsimp only
  cases hget : b.getWrapper endpoint.clientIdentifier with
  | none => exact Or.inl ⟨fun w hw => by simp at hw, rfl⟩
  | some w =>
      by_cases hsame : w.endpoint = id
      · refine Or.inr ⟨w, rfl, hsame, ?_⟩
        simp only [Wrapper.isSameEndpoint, hsame, decide_true, if_true]
        cases hsession : b.cacheService.getSession endpoint.clientIdentifier with
        | none => exact Or.inl ⟨fun session hs => by simp at hs, rfl⟩
        | some session =>
            -- a clean session of this node is destroyed, any other is left to its next connection
            by_cases hdestroy : endpoint.isCleanSession = true ∧
                b.cacheService.thisNodeId = session.nodeId
            · exact Or.inr ⟨hdestroy.1, if_pos hdestroy⟩
            · refine Or.inl ⟨fun session' hs hclean hnode => hdestroy ⟨hclean, ?_⟩, if_neg hdestroy⟩
              rw [Option.some.inj hs]
              exact hnode
      · refine Or.inl ⟨fun w' hw' => ?_, ?_⟩
        · rw [← Option.some.inj hw']
          exact hsame
        · simp [Wrapper.isSameEndpoint, hsame]

/-- What the destruction of a clean session on close leaves of its client. -/
lemma data_closeClean (hr : b.cacheService.routerCache.Consistent)
    (hv : IdUtil.validateClientId clientId = true) :
    CacheService.SameElse b.cacheService
        ((b.cacheService.destroyTransientSession clientId).deleteSession clientId) clientId ∧
      ((b.cacheService.destroyTransientSession clientId).deleteSession clientId).data clientId =
        { b.cacheService.data clientId with session := none, routers := fun _ => none } := by
  refine ⟨(CacheService.sameElse_destroyTransientSession hr hv).trans
    (CacheService.sameElse_deleteSession hv), ?_⟩
  rw [CacheService.data_deleteSession hv, if_pos rfl,
    CacheService.data_destroyTransientSession hr hv, if_pos rfl]

lemma endpoint_disconnect (id id' : ℕ) :
    (b.disconnect id).endpoint id' =
      if id' = id then (b.endpoint id).map MqttEndpoint.close else b.endpoint id' := by
  simp only [disconnect]
  cases hget : b.endpoint id with
  | none =>
      split_ifs with heq
      · rw [heq, hget]
        rfl
      · rfl
  | some endpoint =>
      dsimp only
      rw [endpoint_setEndpoint hget]
      rfl

/-- `closeEndpoint` closes the endpoint of the wrapper, if it is connected, and no other one. -/
lemma endpoint_closeEndpoint (w : Wrapper) (id : ℕ) :
    (b.closeEndpoint w).endpoint id = (b.endpoint id).map fun endpoint =>
      if id = w.endpoint ∧ endpoint.isConnected = true then endpoint.close else endpoint := by
  rw [closeEndpoint, isConnected]
  cases hget : b.endpoint w.endpoint with
  | none =>
      -- there is no endpoint to close, and `id` is another one
      have hne : ∀ endpoint, b.endpoint id = some endpoint → id ≠ w.endpoint := by
        rintro endpoint hid rfl
        rw [hget] at hid
        exact absurd hid (by simp)
      cases hid : b.endpoint id with
      | none => simp [hid]
      | some endpoint => simp [hid, hne endpoint hid]
  | some endpoint =>
      by_cases hc : endpoint.isConnected = true
      · simp only [hc, if_true, endpoint_disconnect]
        by_cases heq : id = w.endpoint
        · rw [heq, if_pos rfl, hget]
          simp [hc]
        · rw [if_neg heq]
          cases b.endpoint id <;> simp [heq]
      · simp only [hc]
        by_cases heq : id = w.endpoint
        · rw [heq]
          simp [hc, hget]
        · cases hid : b.endpoint id <;> simp [heq, hid]

/-! ### The new wrapper -/

/-- What `new PersistentSessionWrapper` opens. -/
lemma newPersistent_spec (id : ℕ) :
    SameElse b (b.newPersistent clientId id).2 clientId ∧
      (b.newPersistent clientId id).2.wrappers = b.wrappers ∧
      (b.newPersistent clientId id).2.endpoints = b.endpoints ∧
      (b.newPersistent clientId id).2.cacheService.data clientId =
        { b.cacheService.data clientId with
          awaits := some (b.cacheService.openAwait clientId).1
          queue := some (b.cacheService.openQueue clientId).1
          inflights := some (b.cacheService.openInflight clientId).1 } := by
  refine ⟨SameElse.withCache ?_, rfl, rfl, ?_⟩
  · exact (CacheService.sameElse_openAwait.trans CacheService.sameElse_openQueue).trans
      CacheService.sameElse_openInflight
  · show (((b.cacheService.openAwait clientId).2.openQueue clientId).2.openInflight clientId).2.data
      clientId = _
    rw [CacheService.data_openInflight, if_pos rfl, CacheService.data_openQueue, if_pos rfl,
      CacheService.data_openAwait, if_pos rfl]
    rfl

/-- What a method of a persistent wrapper can do, when the method keeps what all of them keep. -/
lemma onPersistent_spec {fields : WrapperFields}
    {f : SessionWrapper .persistent → SessionWrapper .persistent}
    (hf : ∀ w, SessionWrapper.Kept w (f w)) {endpoint : MqttEndpoint}
    {queue : BoundedQueue MqttMessage} {inflights : BoundedIgniteMapUnsafe ℤ MqttMessage}
    (he : b.endpoint fields.endpoint = some endpoint)
    (hq : (b.cacheService.data fields.thisClientId).queue = some queue)
    (hi : (b.cacheService.data fields.thisClientId).inflights = some inflights) :
    let w := f ⟨b.cacheService.config, fields.thisClientId, endpoint, queue, inflights,
      fields.timeouts, fields.ledger⟩
    ∃ b', b.onPersistent fields f = some (.persistent { fields with
        timeouts := w.timeouts, ledger := w.ledger }, b') ∧
      SameElse b b' fields.thisClientId ∧ b'.wrappers = b.wrappers ∧
      b'.endpoints = (b.setEndpoint fields.endpoint w.endpoint).endpoints ∧
      b'.cacheService.data fields.thisClientId =
        { b.cacheService.data fields.thisClientId with
          queue := some w.queue, inflights := some w.inflights } := by
  intro w
  have hkept : SessionWrapper.Kept _ w := hf _
  have hlink := hkept.link
  simp only [MqttEndpoint.link, Prod.mk.injEq] at hlink
  have hset := sameElse_setEndpoint w.endpoint he hlink.2.1 hlink.2.2.1 fields.thisClientId
  refine ⟨(b.setEndpoint fields.endpoint w.endpoint).withCache
      (b.cacheService.storeSession fields.thisClientId w.queue w.inflights),
    ?_, ⟨⟨rfl, rfl, fun c hc => ?_, id⟩, fun c hc => rfl, hset.owner⟩, rfl, rfl, ?_⟩
  · have hq' : b.cacheService.queueCache.get fields.thisClientId = some queue := hq
    have hi' : b.cacheService.inflightCache.get fields.thisClientId = some inflights := hi
    simp only [onPersistent]
    rw [he, hq', hi']
  · exact (CacheService.data_storeSession _ _ c).trans (if_neg hc)
  · exact (CacheService.data_storeSession _ _ fields.thisClientId).trans (if_pos rfl)

/-- What `open()` of a persistent wrapper does before its endpoint is accepted: the routers move
to this node, and a retry of every inflight message is counted. -/
lemma openWrapper_spec (hr : b.cacheService.routerCache.Consistent) {fields : WrapperFields}
    (hclient : fields.thisClientId = clientId) {endpoint : MqttEndpoint}
    {queue : BoundedQueue MqttMessage} {inflights : BoundedIgniteMapUnsafe ℤ MqttMessage}
    (he : b.endpoint fields.endpoint = some endpoint) (hc : endpoint.isConnected = false)
    (hq : (b.cacheService.data clientId).queue = some queue)
    (hi : (b.cacheService.data clientId).inflights = some inflights)
    (hk : @Inflights.Keyed .persistent inflights) :
    ∃ (fields' : WrapperFields) (b' : Broker)
      (inflights' : BoundedIgniteMapUnsafe ℤ MqttMessage),
      b.openWrapper (.persistent fields) = (some (.persistent fields'), b') ∧
      fields'.thisClientId = clientId ∧ fields'.endpoint = fields.endpoint ∧
      SameElse b b' clientId ∧ b'.wrappers = b.wrappers ∧ b'.endpoints = b.endpoints ∧
      @Inflights.Keyed .persistent inflights' ∧
      (∀ key, inflights'.get key = (inflights.get key).map PersistentSessionWrapper.retried) ∧
      b'.cacheService.data clientId =
        { b.cacheService.data clientId with
          routers := fun topic => ((b.cacheService.data clientId).routers topic).map fun router =>
            { router with nodeId := b.cacheService.thisNodeId }
          inflights := some inflights' } := by
  subst hclient
  have hinit := @CacheService.data_initPersistentSession b.cacheService fields.thisClientId hr
    fields.thisClientId
  rw [if_pos rfl] at hinit
  set b₁ := b.withCache (b.cacheService.initPersistentSession fields.thisClientId) with hb₁
  have hdata : b₁.cacheService.data fields.thisClientId = _ := hinit
  obtain ⟨b', hon, hsame, hwrappers, hendpoints, hdata'⟩ :=
    @onPersistent_spec b₁ fields _ PersistentSessionWrapper.kept_openWrapper endpoint queue
      inflights he (by rw [hdata]; exact hq) (by rw [hdata]; exact hi)
  set w : SessionWrapper .persistent := ⟨b₁.cacheService.config, fields.thisClientId, endpoint,
    queue, inflights, fields.timeouts, fields.ledger⟩ with hw
  obtain ⟨hqueue, hend, hget⟩ :=
    PersistentSessionWrapper.openWrapper_of_not_connected (w := w) hc hk
  refine ⟨{ fields with
      timeouts := (PersistentSessionWrapper.openWrapper w).timeouts
      ledger := (PersistentSessionWrapper.openWrapper w).ledger }, b',
    (PersistentSessionWrapper.openWrapper w).inflights, ?_, rfl, rfl,
    (SameElse.withCache (CacheService.sameElse_initPersistentSession hr)).trans hsame, hwrappers,
    ?_, (PersistentSessionWrapper.kept_openWrapper w).keyed hk, hget, ?_⟩
  · unfold openWrapper
    dsimp only
    rw [← hb₁, hon]
  · rw [hendpoints, hend]
    have hself : b₁.setEndpoint fields.endpoint endpoint = b₁ := setEndpoint_self he
    rw [show w.endpoint = endpoint from rfl, hself]
    rfl
  · rw [hdata', hdata, hqueue, ← hq]

end Broker

end Stuart
