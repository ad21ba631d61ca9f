/-
The end of a connection whose client has connected to another node.

A node that is told of the takeover closes the old connection.  Whether that happens before or
after the new session is opened makes no difference: opening a session does not touch the old
endpoint, and what a clean session leaves behind is destroyed in any case.
-/
import Stuart.Services.Gather

namespace Stuart

open List Lib TopicUtil

namespace RouterCache

variable {s : RouterCache} {clientId : Str}

/-- There is nothing left to delete. -/
lemma Consistent.deleteClient_of_none (h : s.Consistent)
    (hnone : ∀ topic, s.routerOf clientId topic = none) : s.deleteClient clientId = s := by
  have htopics : s.topicsOf clientId = [] := by
    refine eq_nil_iff_forall_not_mem.2 fun topic hmem => ?_
    obtain ⟨router, hrouter, rfl⟩ := mem_map.1 hmem
    obtain ⟨hvalue, hclient⟩ := mem_filter.1 hrouter
    obtain ⟨key, hget⟩ := (PlainMap.mem_values_iff _ _).1 hvalue
    have hkey := h.keyed key router hget
    rw [← hkey, MqttRouter.key, of_decide_eq_true hclient] at hget
    exact absurd ((hnone router.topic).symm.trans hget) (by simp)
  simp only [RouterCache.deleteClient]
  rw [htopics]
  split_ifs <;> rfl

lemma Consistent.deleteClient_deleteClient (h : s.Consistent) (clientId : Str) :
    (s.deleteClient clientId).deleteClient clientId = s.deleteClient clientId := by
  by_cases hv : IdUtil.validateClientId clientId = true
  · refine (h.deleteClient clientId).deleteClient_of_none fun topic => ?_
    rw [h.routerOf_deleteClient hv, if_pos rfl]
  · simp only [RouterCache.deleteClient]
    rw [if_pos (by simpa using hv), if_pos (by simpa using hv)]

end RouterCache

namespace Broker

variable {b : Broker} {clientId : Str}

/-! ### What a close does exactly -/

/-- The destruction of a clean session. -/
def destroyClean (s : CacheService) (clientId : Str) : CacheService :=
  (s.destroyTransientSession clientId).deleteSession clientId

/-- The end of the connection that the registered wrapper has. -/
lemma close_held {w : Wrapper} {endpoint : MqttEndpoint} (hget : b.getWrapper clientId = some w)
    (hend : b.endpoint w.endpoint = some endpoint) (hclient : endpoint.clientIdentifier = clientId)
    {session : MqttSession} (hsession : b.cacheService.getSession clientId = some session) :
    b.step (.close w.endpoint) =
      if endpoint.isCleanSession ∧ b.cacheService.thisNodeId = session.nodeId then
        ((b.disconnect w.endpoint).removeWrapper clientId).withCache
          (destroyClean b.cacheService clientId)
      else (b.disconnect w.endpoint).removeWrapper clientId := by
  have hv := valid_of_getWrapper hget
  have hend' : (b.disconnect w.endpoint).endpoint w.endpoint = some endpoint.close := by
    rw [endpoint_disconnect, if_pos rfl, hend]
    rfl
  have hget' : (b.disconnect w.endpoint).getWrapper clientId = some w := by
    rw [getWrapper_eq hv] at hget ⊢
    rw [disconnect_wrappers, hget]
  have hmay : (b.disconnect w.endpoint).mayClose endpoint.close = true := by
    simp only [mayClose]
    rw [Bool.and_eq_true, PlainMap.containsKey_iff]
    refine ⟨rfl, ?_⟩
    rw [getWrapper_eq hv] at hget'
    rw [show endpoint.close.clientIdentifier = clientId from hclient, hget']
    simp
  show (b.disconnect w.endpoint).closeSession w.endpoint = _
  simp only [Broker.closeSession]
  rw [hend']
  dsimp only
  rw [if_pos hmay]
  simp only [closeLocked]
  rw [show endpoint.close.clientIdentifier = clientId from hclient, hget']
  simp only [Wrapper.isSameEndpoint, decide_true, if_true, disconnect_cacheService, hsession]
  rfl

/-- The end of the connection of a registered wrapper, in a sound broker. -/
lemma Inv.close_eq (h : b.Inv) {w : Wrapper} (hget : b.getWrapper clientId = some w) :
    b.step (.close w.endpoint) =
      if w.kind = .transient then
        ((b.disconnect w.endpoint).removeWrapper clientId).withCache
          (destroyClean b.cacheService clientId)
      else (b.disconnect w.endpoint).removeWrapper clientId := by
  have hl := h.live_of_getWrapper hget
  obtain ⟨endpoint, hend, -⟩ := Option.map_eq_some_iff.1 hl.owner
  obtain ⟨hclient, hclean⟩ := hl.isCleanSession hend
  have hsession := (CacheService.getSession_eq hl.valid).trans hl.session
  rw [close_held hget hend hclient hsession, hclean]
  refine if_congr ?_ rfl rfl
  simp

/-- A connection that no registered wrapper has. -/
lemma close_eq_disconnect {id : ℕ} {endpoint : MqttEndpoint} (hend : b.endpoint id = some endpoint)
    (hnot : ∀ w, b.getWrapper endpoint.clientIdentifier = some w → w.endpoint ≠ id) :
    b.step (.close id) = b.disconnect id := by
  have hend' : (b.disconnect id).endpoint id = some endpoint.close := by
    rw [endpoint_disconnect, if_pos rfl, hend]
    rfl
  have hlocked : (b.disconnect id).closeLocked endpoint.close id = b.disconnect id := by
    rcases closeLocked_cases (b := b.disconnect id) endpoint.close id with
      ⟨-, heq⟩ | ⟨w, hget, hid, -⟩
    · exact heq
    · refine absurd hid (hnot w ?_)
      simp only [getWrapper] at hget ⊢
      rw [disconnect_wrappers] at hget
      exact hget
  show (b.disconnect id).closeSession id = _
  simp only [Broker.closeSession]
  rw [hend']
  dsimp only
  rw [hlocked, ite_self]

/-! ### Opening a session touches no other endpoint -/

section Aside

variable {id : ℕ} {endpoint : MqttEndpoint}

lemma removeWrapper_setEndpoint : (b.setEndpoint id endpoint).removeWrapper clientId =
    (b.removeWrapper clientId).setEndpoint id endpoint := by
  simp only [Broker.removeWrapper]
  split_ifs <;> rfl

lemma putWrapper_setEndpoint (w : Wrapper) : (b.setEndpoint id endpoint).putWrapper clientId w =
    (b.putWrapper clientId w).setEndpoint id endpoint := by
  simp only [Broker.putWrapper]
  split_ifs <;> rfl

lemma endpoint_setEndpoint_of_ne {id' : ℕ} (hne : id ≠ id') :
    (b.setEndpoint id endpoint).endpoint id' = b.endpoint id' :=
  getElem?_set_ne hne

lemma setEndpoint_comm {id' : ℕ} (hne : id ≠ id') (endpoint' : MqttEndpoint) :
    (b.setEndpoint id endpoint).setEndpoint id' endpoint' =
      (b.setEndpoint id' endpoint').setEndpoint id endpoint := by
  simp only [setEndpoint]
  rw [set_comm _ _ hne]

lemma accept_setEndpoint {id' : ℕ} (hne : id ≠ id') :
    (b.setEndpoint id endpoint).accept id' = (b.accept id').setEndpoint id endpoint := by
  simp only [Broker.accept]
  rw [endpoint_setEndpoint_of_ne hne]
  cases b.endpoint id' with
  | none => rfl
  | some endpoint' =>
      dsimp only
      cases endpoint'.accept with
      | none => rfl
      | some accepted => exact setEndpoint_comm hne accepted

lemma onPersistent_setEndpoint {fields : WrapperFields} (hne : id ≠ fields.endpoint)
    (f : SessionWrapper .persistent → SessionWrapper .persistent) :
    (b.setEndpoint id endpoint).onPersistent fields f =
      (b.onPersistent fields f).map fun result =>
        (result.1, result.2.setEndpoint id endpoint) := by
  have hcache : (b.setEndpoint id endpoint).cacheService = b.cacheService := rfl
  simp only [Broker.onPersistent]
  rw [endpoint_setEndpoint_of_ne hne, hcache]
  cases b.endpoint fields.endpoint with
  | none => rfl
  | some endpoint' =>
      cases b.cacheService.queueCache.get fields.thisClientId with
      | none => rfl
      | some queue =>
          cases b.cacheService.inflightCache.get fields.thisClientId with
          | none => rfl
          | some inflights =>
              dsimp only [Option.map_some]
              rw [setEndpoint_comm hne]
              rfl

lemma openWrapper_setEndpoint {w : Wrapper} (hne : id ≠ w.endpoint) :
    (b.setEndpoint id endpoint).openWrapper w =
      ((b.openWrapper w).1, (b.openWrapper w).2.setEndpoint id endpoint) := by
  cases w with
  | transient fields queue inflights awaits => rfl
  | persistent fields =>
      have hinit : (b.setEndpoint id endpoint).withCache
          ((b.setEndpoint id endpoint).cacheService.initPersistentSession fields.thisClientId) =
            (b.withCache (b.cacheService.initPersistentSession fields.thisClientId)).setEndpoint id
              endpoint := rfl
      simp only [Broker.openWrapper]
      rw [hinit, onPersistent_setEndpoint (show id ≠ fields.endpoint from hne)]
      cases (b.withCache (b.cacheService.initPersistentSession fields.thisClientId)).onPersistent
        fields PersistentSessionWrapper.openWrapper <;> rfl

/-- A session is opened for a client without a wrapper. -/
lemma openSession_setEndpoint (hnone : b.getWrapper clientId = none) {id' : ℕ} (hne : id ≠ id')
    (cleanSession : Bool) :
    (b.setEndpoint id endpoint).openSession clientId id' cleanSession =
      (b.openSession clientId id' cleanSession).setEndpoint id endpoint := by
  have hnone' : (b.setEndpoint id endpoint).getWrapper clientId = none := hnone
  have htake : ((b.setEndpoint id endpoint).removeWrapper clientId).saveSession clientId
      cleanSession =
        ((b.removeWrapper clientId).saveSession clientId cleanSession).setEndpoint id endpoint := by
    rw [removeWrapper_setEndpoint]
    rfl
  have htear (b : Broker) (isPersistent : Bool) :
      (b.setEndpoint id endpoint).teardown clientId cleanSession isPersistent none =
        (b.teardown clientId cleanSession isPersistent none).setEndpoint id endpoint := by
    simp only [teardown]
    split_ifs <;> rfl
  have hbuild (b : Broker) (isPersistent : Bool) :
      (b.setEndpoint id endpoint).buildWrapper clientId id' cleanSession isPersistent none =
          ((b.buildWrapper clientId id' cleanSession isPersistent none).1,
            (b.buildWrapper clientId id' cleanSession isPersistent none).2.setEndpoint id
              endpoint) ∧
        (b.buildWrapper clientId id' cleanSession isPersistent none).1.endpoint = id' := by
    cases cleanSession <;> exact ⟨rfl, rfl⟩
  simp only [openSession, takeWrapper]
  rw [hnone, hnone', htake, htear,
    show (b.setEndpoint id endpoint).cacheService = b.cacheService from rfl]
  obtain ⟨hbuilt, hend⟩ := hbuild (((b.removeWrapper clientId).saveSession clientId
    cleanSession).teardown clientId cleanSession (b.cacheService.isPersistentSession clientId) none)
    (b.cacheService.isPersistentSession clientId)
  rw [hbuilt]
  dsimp only
  rw [openWrapper_setEndpoint (by rw [hend]; exact hne)]
  generalize Broker.openWrapper _ _ = opened
  obtain ⟨_ | w, b'⟩ := opened
  · rfl
  · exact putWrapper_setEndpoint w

lemma handleAccept_setEndpoint (hnone : b.getWrapper clientId = none)
    (hid : id < b.endpoints.length) (cleanSession : Bool) :
    ((b.setEndpoint id endpoint).handleAccept clientId cleanSession).2 =
      (b.handleAccept clientId cleanSession).2.setEndpoint id endpoint := by
  have hadd : (b.setEndpoint id endpoint).addEndpoint clientId cleanSession =
      (b.addEndpoint clientId cleanSession).setEndpoint id endpoint := by
    simp only [addEndpoint, setEndpoint, length_set]
    rw [set_append_left _ _ hid]
  have hlength : (b.setEndpoint id endpoint).endpoints.length = b.endpoints.length := length_set ..
  have hne : id ≠ b.endpoints.length := Nat.ne_of_lt hid
  have hopen : ((b.addEndpoint clientId cleanSession).setEndpoint id endpoint).openSession clientId
      b.endpoints.length cleanSession = _ :=
    openSession_setEndpoint (b := b.addEndpoint clientId cleanSession) hnone hne cleanSession
  rw [← hadd] at hopen
  simp only [addEndpoint] at hopen
  simp only [handleAccept]
  rw [hlength] at hopen ⊢
  rw [hopen]
  exact accept_setEndpoint hne

end Aside

lemma lt_of_owner {id : ℕ} {owner : Str × Bool} (h : b.owner id = some owner) :
    id < b.endpoints.length := by
  by_contra hle
  rw [owner_of_le (Nat.le_of_not_lt hle)] at h
  cases h

/-- An old connection that ends before the new session is opened. -/
lemma Inv.handleAccept_disconnect (h : b.Inv) (hv : IdUtil.validateClientId clientId = true)
    (hnone : b.getWrapper clientId = none) {id : ℕ} (hid : id < b.endpoints.length)
    (cleanSession : Bool) :
    ((b.disconnect id).handleAccept clientId cleanSession).2 =
      (b.handleAccept clientId cleanSession).2.disconnect id := by
  obtain ⟨endpoint, hend⟩ : ∃ endpoint, b.endpoint id = some endpoint :=
    ⟨_, getElem?_eq_getElem hid⟩
  -- the new session leaves the old endpoint as it is
  have hkeep : ((b.setEndpoint id endpoint).handleAccept clientId cleanSession).2 = _ :=
    handleAccept_setEndpoint hnone hid cleanSession
  rw [setEndpoint_self hend] at hkeep
  have hlength : id < (b.handleAccept clientId cleanSession).2.endpoints.length := by
    have howner := (h.connect hv cleanSession).sameElse.owner id
    rw [owner_addEndpoint, if_neg (Nat.ne_of_lt hid)] at howner
    have hold : b.owner id = some (endpoint.clientIdentifier, endpoint.isCleanSession) := by
      rw [Broker.owner, hend]
      rfl
    exact lt_of_owner (howner.trans hold)
  have hend' : (b.handleAccept clientId cleanSession).2.endpoint id = some endpoint := by
    rw [hkeep]
    exact getElem?_set_self hlength
  simp only [Broker.disconnect]
  rw [hend, hend']
  exact handleAccept_setEndpoint hnone hid cleanSession

/-- A session that is opened for a client without a wrapper, after a clean session has been
destroyed. -/
lemma handleAccept_destroyClean (hr : b.cacheService.routerCache.Consistent)
    (hv : IdUtil.validateClientId clientId = true) (hnone : b.getWrapper clientId = none)
    (hclean : b.cacheService.isPersistentSession clientId = false) (cleanSession : Bool) :
    ((b.withCache (destroyClean b.cacheService clientId)).handleAccept clientId cleanSession).2 =
      (b.handleAccept clientId cleanSession).2 := by
  set u := b.withCache (destroyClean b.cacheService clientId)
  have hpers : u.cacheService.isPersistentSession clientId = false := by
    by_contra hp
    obtain ⟨session, hsession, -⟩ := (CacheService.isPersistentSession_iff hv).1 (by simpa using hp)
    have hdata := CacheService.data_deleteSession
      (s := b.cacheService.destroyTransientSession clientId) hv clientId
    rw [if_pos rfl] at hdata
    exact absurd ((congrArg ClientData.session hdata).symm.trans hsession) (by simp)
  -- the teardown deletes the routers, and the record is a new one
  have hcache : (u.cacheService.saveSession ⟨clientId, cleanSession,
      u.cacheService.thisNodeId⟩).destroyTransientSession clientId =
        (b.cacheService.saveSession ⟨clientId, cleanSession,
          b.cacheService.thisNodeId⟩).destroyTransientSession clientId := by
    have hvalid : ¬(!IdUtil.validateClientId clientId) = true := by simp [hv]
    simp only [u, withCache, destroyClean, CacheService.saveSession, CacheService.deleteSession,
      CacheService.destroyTransientSession, CacheService.deleteRouters, if_neg hvalid]
    rw [hr.deleteClient_deleteClient, PlainMap.put_remove_self]
  have htear : ((u.addEndpoint clientId cleanSession).removeWrapper clientId |>.saveSession
      clientId cleanSession).teardown clientId cleanSession false none =
        ((b.addEndpoint clientId cleanSession).removeWrapper clientId |>.saveSession
          clientId cleanSession).teardown clientId cleanSession false none := by
    rw [removeWrapper_eq hv, removeWrapper_eq hv]
    simp only [teardown, Bool.and_false, Bool.false_eq_true, if_false, Bool.not_false, Bool.or_true,
      if_true]
    exact congrArg (Broker.mk · _ _) hcache
  have hopen : (u.addEndpoint clientId cleanSession).openSession clientId b.endpoints.length
      cleanSession = (b.addEndpoint clientId cleanSession).openSession clientId b.endpoints.length
        cleanSession := by
    simp only [openSession, takeWrapper]
    rw [show (u.addEndpoint clientId cleanSession).getWrapper clientId = none from hnone,
      show (b.addEndpoint clientId cleanSession).getWrapper clientId = none from hnone,
      show (u.addEndpoint clientId cleanSession).cacheService.isPersistentSession clientId = false
        from hpers,
      show (b.addEndpoint clientId cleanSession).cacheService.isPersistentSession clientId = false
        from hclean, htear]
  exact congrArg (Broker.accept · b.endpoints.length) hopen

end Broker

end Stuart
