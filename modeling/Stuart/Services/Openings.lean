/-
Sessions that are opened step by step, beside each other.

An `Opening` is one call of `openSession`, for any client, cut at the places where other tasks can
come in between.  From the locked section, which removes the old wrapper, to the registration of the
new one the client has no wrapper.  Whatever the calls of the clients do in between, the routers
stay consistent, and a registered wrapper is one of its client (`Broker.Sound`).
-/
import Stuart.Services.Takeover
import Stuart.Verticles.RouterAccess

namespace Stuart

open List Lib

/-- A call of `openSession` for the connection `id`, and where it is. -/
structure Opening where
  clientId : Str
  id : ℕ
  cleanSession : Bool
  pc : Takeover.Pc

namespace Opening

/-- The wrapper that the call holds. -/
def wrapper (o : Opening) : Option Wrapper :=
  match o.pc with
  | .locked _ old | .tornDown _ old => old
  | .built wrapper | .opened wrapper => some wrapper
  | .start | .read _ | .returned | .accepted => none

/-- The call holds a wrapper of its client only. -/
def Holds (o : Opening) : Prop := ∀ w ∈ o.wrapper, w.fields.thisClientId = o.clientId

/-- The next step of the call, and of `endpoint.accept` after it. -/
def step (b : Broker) (o : Opening) : Option (Broker × Opening) :=
  match o.pc with
  | .start =>
      some (b, { o with pc := .read (b.cacheService.isPersistentSession o.clientId) })
  | .read isPersistent =>
      let taken := b.takeWrapper o.clientId o.cleanSession
      some (taken.2, { o with pc := .locked isPersistent taken.1 })
  | .locked isPersistent old =>
      some (b.teardown o.clientId o.cleanSession isPersistent old,
        { o with pc := .tornDown isPersistent old })
  | .tornDown isPersistent old =>
      let built := b.buildWrapper o.clientId o.id o.cleanSession isPersistent old
      some (built.2, { o with pc := .built built.1 })
  | .built wrapper =>
      match b.openWrapper wrapper with
      | (some wrapper, b') => some (b', { o with pc := .opened wrapper })
      | (none, b') => some (b', { o with pc := .returned })
  | .opened wrapper => some (b.putWrapper o.clientId wrapper, { o with pc := .returned })
  | .returned => some (b.accept o.id, { o with pc := .accepted })
  | .accepted => none

end Opening

/-- The calls for one client are the connections of a takeover. -/
lemma Takeover.openStep_broker (s : Takeover.State) (i : ℕ) (endpoint : MqttEndpoint)
    (pc : Takeover.Pc) :
    (Takeover.openStep s i endpoint pc).map (fun s' => (s'.broker, s'.pcs)) =
      (Opening.step s.broker ⟨s.clientId, i, endpoint.isCleanSession, pc⟩).map fun r =>
        (r.1, s.pcs.set i r.2.pc) := by
  cases pc with
  | built wrapper =>
      simp only [Takeover.openStep, Opening.step]
      obtain ⟨opened, b'⟩ := s.broker.openWrapper wrapper
      cases opened <;> rfl
  | start | read isPersistent | locked isPersistent old | tornDown isPersistent old
  | opened wrapper | returned | accepted => rfl

namespace Broker

/-- The routers are consistent, and a registered wrapper is one of its client. -/
structure Sound (b : Broker) : Prop where
  routers : b.cacheService.routerCache.Consistent
  wrappers : ∀ clientId clientId', b.wrapperClient clientId = some clientId' → clientId' = clientId

variable {b b' : Broker} {clientId : Str}

lemma Restarted.sound (h : b.Restarted) : b.Sound := by
  refine ⟨h.routers, fun clientId clientId' hw => ?_⟩
  have hnone : b.getWrapper clientId = none := by
    simp only [Broker.getWrapper]
    rw [h.wrappers]
    split_ifs
    · rfl
    · exact PlainMap.get_empty clientId
  rw [wrapperClient_of_none hnone] at hw
  cases hw

lemma Sound.of_writes {accesses : List RouterAccess} (h : b.Sound) (hw : b.Writes b' accesses) :
    b'.Sound :=
  ⟨hw.consistent h.routers, fun clientId clientId' h' =>
    h.wrappers clientId clientId' ((hw.wrappers clientId).symm.trans h')⟩

/-- Nothing is done to the wrappers. -/
lemma Sound.congr (h : b.Sound) (hrouters : b'.cacheService.routerCache.Consistent)
    (hwrappers : b'.wrappers = b.wrappers) : b'.Sound := by
  refine ⟨hrouters, fun clientId clientId' hw => h.wrappers clientId clientId' ?_⟩
  simp only [wrapperClient, getWrapper] at hw ⊢
  rw [← hwrappers]
  exact hw

lemma Sound.client (h : b.Sound) {w : Wrapper} (hget : b.getWrapper clientId = some w) :
    w.fields.thisClientId = clientId :=
  h.wrappers clientId _ (wrapperClient_of_some hget)

lemma Sound.putWrapper (h : b.Sound) {w : Wrapper} (hclient : w.fields.thisClientId = clientId) :
    (b.putWrapper clientId w).Sound := by
  by_cases hv : IdUtil.validateClientId clientId = true
  · rw [putWrapper_eq hv]
    refine ⟨h.routers, fun c c' hw => ?_⟩
    by_cases heq : c = clientId
    · subst heq
      simp only [wrapperClient, getWrapper_eq hv, PlainMap.get_put_self, Option.map_some,
        Option.some.injEq] at hw
      rw [← hw, hclient]
    · refine h.wrappers c c' ?_
      rw [← hw]
      simp only [wrapperClient, getWrapper, PlainMap.get_put_of_ne _ heq]
  · simp only [Broker.putWrapper]
    rw [if_pos (by simpa using hv)]
    exact h

lemma Sound.removeWrapper (h : b.Sound) (clientId : Str) : (b.removeWrapper clientId).Sound := by
  simp only [Broker.removeWrapper]
  split_ifs with hv
  · exact h
  · refine ⟨h.routers, fun c c' hw => ?_⟩
    by_cases heq : c = clientId
    · subst heq
      have hv' : IdUtil.validateClientId c = true := by simpa using hv
      simp only [wrapperClient, getWrapper_eq hv', PlainMap.get_remove_self, Option.map_none] at hw
      cases hw
    · refine h.wrappers c c' ?_
      rw [← hw]
      simp only [wrapperClient, getWrapper, PlainMap.get_remove_of_ne _ heq]

/-! ### The parts of `openSession` -/

lemma Sound.takeWrapper (h : b.Sound) (clientId : Str) (cleanSession : Bool) :
    (b.takeWrapper clientId cleanSession).2.Sound ∧
      ∀ w ∈ (b.takeWrapper clientId cleanSession).1, w.fields.thisClientId = clientId := by
  refine ⟨(h.removeWrapper clientId).congr ?_ rfl, fun w hw => h.client hw⟩
  show (CacheService.saveSession _ _).routerCache.Consistent
  simp only [CacheService.saveSession]
  split_ifs <;> exact (h.removeWrapper clientId).routers

lemma Sound.disconnect (h : b.Sound) (id : ℕ) : (b.disconnect id).Sound :=
  h.congr (by rw [disconnect_cacheService]; exact h.routers) (disconnect_wrappers id)

lemma Sound.closeEndpoint (h : b.Sound) (w : Wrapper) : (b.closeEndpoint w).Sound :=
  h.congr (by rw [closeEndpoint_cacheService]; exact h.routers) (closeEndpoint_wrappers w)

lemma Sound.deleteRouters (h : b.Sound) {cacheService : CacheService} (clientId : Str)
    (heq : cacheService.routerCache = b.cacheService.routerCache.deleteClient clientId) :
    (b.withCache cacheService).Sound :=
  h.congr (by rw [withCache, heq]; exact h.routers.deleteClient clientId) rfl

lemma Sound.closeWrapper (h : b.Sound) (w : Wrapper) : (b.closeWrapper w).Sound := by
  have hclosed := h.closeEndpoint w
  cases w with
  | transient fields queue inflights awaits => exact hclosed.deleteRouters fields.thisClientId rfl
  | persistent fields => exact hclosed.deleteRouters fields.thisClientId rfl

lemma Sound.teardown (h : b.Sound) (clientId : Str) (cleanSession isPersistent : Bool)
    (old : Option Wrapper) : (b.teardown clientId cleanSession isPersistent old).Sound := by
  cases old with
  | none =>
      unfold Broker.teardown
      dsimp only
      split_ifs
      · exact h.deleteRouters clientId rfl
      · exact h.deleteRouters clientId rfl
      · exact h
  | some w =>
      unfold Broker.teardown
      dsimp only
      split_ifs
      · exact h.closeWrapper w
      · exact h.closeEndpoint w
      · exact h.closeWrapper w

lemma Sound.buildWrapper (h : b.Sound) (clientId : Str) (id : ℕ) (cleanSession isPersistent : Bool)
    {old : Option Wrapper} (hold : ∀ w ∈ old, w.fields.thisClientId = clientId) :
    (b.buildWrapper clientId id cleanSession isPersistent old).2.Sound ∧
      (b.buildWrapper clientId id cleanSession isPersistent old).1.fields.thisClientId =
        clientId := by
  have hnew : (b.newPersistent clientId id).2.Sound ∧
      (b.newPersistent clientId id).1.fields.thisClientId = clientId := ⟨h.congr h.routers rfl, rfl⟩
  simp only [Broker.buildWrapper]
  by_cases hclean : cleanSession = true
  · rw [if_pos hclean]
    exact ⟨h, rfl⟩
  · rw [if_neg hclean]
    cases old with
    | none => exact hnew
    | some w =>
        dsimp only
        split_ifs
        · refine ⟨h, ?_⟩
          cases w with
          | transient fields queue inflights awaits => exact hold _ rfl
          | persistent fields => exact hold (.persistent fields) rfl
        · exact hnew

lemma Sound.openWrapper (h : b.Sound) (w : Wrapper) :
    (b.openWrapper w).2.Sound ∧
      ∀ w' ∈ (b.openWrapper w).1, w'.fields.thisClientId = w.fields.thisClientId := by
  cases w with
  | transient fields queue inflights awaits =>
      exact ⟨h, fun w' hw' => by rw [← Option.some.inj hw']⟩
  | persistent fields =>
      have hinit : (b.withCache
          (b.cacheService.initPersistentSession fields.thisClientId)).Sound :=
        h.congr (h.routers.update _ _) rfl
      unfold Broker.openWrapper
      dsimp only
      cases hon : (b.withCache (b.cacheService.initPersistentSession
          fields.thisClientId)).onPersistent fields PersistentSessionWrapper.openWrapper with
      | none => exact ⟨hinit, fun w' hw' => by cases hw'⟩
      | some r =>
          obtain ⟨w', b'⟩ := r
          dsimp only
          simp only [onPersistent] at hon
          split at hon
          · simp only [Option.some.injEq, Prod.mk.injEq] at hon
            obtain ⟨rfl, rfl⟩ := hon
            refine ⟨hinit.congr hinit.routers rfl, fun w'' hw'' => ?_⟩
            rw [← Option.some.inj hw'']
            rfl
          · cases hon

lemma Sound.accept (h : b.Sound) (id : ℕ) : (b.accept id).Sound :=
  h.congr (by rw [accept_cacheService]; exact h.routers) (accept_wrappers id)

lemma Sound.openSession (h : b.Sound) (clientId : Str) (id : ℕ) (cleanSession : Bool) :
    (b.openSession clientId id cleanSession).Sound := by
  unfold Broker.openSession
  dsimp only
  generalize b.cacheService.isPersistentSession clientId = isPersistent
  obtain ⟨htaken, hold⟩ := h.takeWrapper clientId cleanSession
  obtain ⟨hbuilt, hclient⟩ := (htaken.teardown clientId cleanSession isPersistent
    (b.takeWrapper clientId cleanSession).1).buildWrapper clientId id cleanSession isPersistent hold
  obtain ⟨hopened, hsame⟩ := hbuilt.openWrapper (Broker.buildWrapper _ clientId id cleanSession
    isPersistent (b.takeWrapper clientId cleanSession).1).1
  split
  · rename_i w b' heq
    rw [heq] at hopened hsame
    exact hopened.putWrapper ((hsame w rfl).trans hclient)
  · rename_i b' heq
    rw [heq] at hopened
    exact hopened

lemma Sound.closeLocked (h : b.Sound) (endpoint : MqttEndpoint) (id : ℕ) :
    (b.closeLocked endpoint id).Sound := by
  have hremoved := h.removeWrapper endpoint.clientIdentifier
  rw [Broker.closeLocked]
  dsimp only
  split
  · exact h
  · split_ifs
    · split
      · exact hremoved
      · split_ifs
        · refine hremoved.congr ?_ rfl
          show (CacheService.deleteSession _ _).routerCache.Consistent
          simp only [CacheService.deleteSession]
          split_ifs <;> exact h.routers.deleteClient _
        · exact hremoved
    · exact h

lemma Sound.closeSession (h : b.Sound) (id : ℕ) : (b.closeSession id).Sound := by
  simp only [Broker.closeSession]
  split
  · exact h
  · split_ifs
    · exact h.closeLocked _ id
    · exact h

/-- A new connection: there is one endpoint more. -/
lemma Sound.addEndpoint (h : b.Sound) (clientId : Str) (cleanSession : Bool) :
    (b.addEndpoint clientId cleanSession).Sound := h.congr h.routers rfl

lemma Sound.handleAccept (h : b.Sound) (clientId : Str) (cleanSession : Bool) :
    (b.handleAccept clientId cleanSession).2.Sound :=
  ((h.addEndpoint clientId cleanSession).openSession clientId b.endpoints.length
    cleanSession).accept _

/-! ### One step of a call -/

lemma Sound.opening (h : b.Sound) {o o' : Opening} (ho : o.Holds)
    (hstep : o.step b = some (b', o')) : b'.Sound ∧ o'.Holds := by
  obtain ⟨clientId, id, cleanSession, pc⟩ := o
  cases pc with
  | start =>
      obtain ⟨rfl, rfl⟩ := Prod.mk.inj (Option.some.inj hstep)
      exact ⟨h, fun w hw => by cases hw⟩
  | read isPersistent =>
      obtain ⟨rfl, rfl⟩ := Prod.mk.inj (Option.some.inj hstep)
      exact h.takeWrapper clientId cleanSession
  | locked isPersistent old =>
      obtain ⟨rfl, rfl⟩ := Prod.mk.inj (Option.some.inj hstep)
      exact ⟨h.teardown clientId cleanSession isPersistent old, ho⟩
  | tornDown isPersistent old =>
      obtain ⟨rfl, rfl⟩ := Prod.mk.inj (Option.some.inj hstep)
      obtain ⟨hsound, hclient⟩ := h.buildWrapper clientId id cleanSession isPersistent ho
      exact ⟨hsound, fun w hw => by rw [← Option.some.inj hw]; exact hclient⟩
  | built wrapper =>
      obtain ⟨hsound, hsame⟩ := h.openWrapper wrapper
      simp only [Opening.step] at hstep
      split at hstep
      · rename_i w b'' heq
        obtain ⟨rfl, rfl⟩ := Prod.mk.inj (Option.some.inj hstep)
        rw [heq] at hsound hsame
        refine ⟨hsound, fun w' hw' => ?_⟩
        rw [← Option.some.inj hw']
        exact (hsame w rfl).trans (ho wrapper rfl)
      · rename_i b'' heq
        obtain ⟨rfl, rfl⟩ := Prod.mk.inj (Option.some.inj hstep)
        rw [heq] at hsound
        exact ⟨hsound, fun w' hw' => by cases hw'⟩
  | opened wrapper =>
      obtain ⟨rfl, rfl⟩ := Prod.mk.inj (Option.some.inj hstep)
      exact ⟨h.putWrapper (ho wrapper rfl), fun w hw => by cases hw⟩
  | returned =>
      obtain ⟨rfl, rfl⟩ := Prod.mk.inj (Option.some.inj hstep)
      exact ⟨h.accept id, fun w hw => by cases hw⟩
  | accepted => cases hstep

end Broker

end Stuart
