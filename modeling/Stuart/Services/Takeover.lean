/-
Connections of one client that take over its session from each other.

Every connection runs `handleAccept`: the parts of `openSession` one after the other, then
`endpoint.accept`.  Endpoints close at any time, and `closeSession` runs for those that have:
its checks come first, its locked part later.  In between the client subscribes and unsubscribes.
All of these steps interleave.

Only the removal of the old wrapper and the new record are under the lock.  A connection is busy
from there until its wrapper is registered, and as long as its endpoint can still be accepted
nobody can close it.  If no connection takes the lock while another one is there, and if none
takes a transient wrapper for a persistent one, the last one to take the lock is the only one that
stays connected, and it holds the registered wrapper (`single_live_run`).
-/
import Stuart.Services.Lifecycle

namespace Stuart

open List Lib

namespace Takeover

/-- Where `handleAccept` of a connection is. -/
inductive Pc where
  | start
  | read (isPersistent : Bool)
  | locked (isPersistent : Bool) (old : Option Wrapper)
  | tornDown (isPersistent : Bool) (old : Option Wrapper)
  | built (wrapper : Wrapper)
  | opened (wrapper : Wrapper)
  /-- `openSession` is over, and the endpoint is not accepted yet -/
  | returned
  | accepted

namespace Pc

/-- Past the locked section, and the wrapper is not registered yet. -/
def isBusy : Pc → Bool
  | locked .. | tornDown .. | built _ | opened _ => true
  | _ => false

/-- `openSession` is over. -/
def isReturned : Pc → Bool
  | returned | accepted => true
  | _ => false

def isAccepted : Pc → Bool
  | accepted => true
  | _ => false

end Pc

structure State where
  clientId : Str
  broker : Broker
  /-- of each connection, by the place of its endpoint -/
  pcs : List Pc
  /-- the calls of `closeSession` that are past their checks -/
  closers : List ℕ
  /-- ghost: the connection that took the session last -/
  latest : Option ℕ
  /-- ghost: the topics that the session has subscribed to -/
  topics : List Str

namespace State

def setPc (s : State) (i : ℕ) (pc : Pc) : State := { s with pcs := s.pcs.set i pc }

/-- What is stored of the client. -/
def data (s : State) : ClientData := s.broker.cacheService.data s.clientId

/-- The registered wrapper of the client. -/
def wrapper (s : State) : Option Wrapper := s.broker.getWrapper s.clientId

def cleanSession (s : State) (i : ℕ) : Bool :=
  match s.broker.endpoint i with
  | some endpoint => endpoint.isCleanSession
  | none => false

/-- The connection is busy, or its wrapper is registered and its endpoint will be accepted. -/
def inWindow (s : State) (i : ℕ) : Bool :=
  match s.pcs[i]?, s.broker.endpoint i with
  | some .returned, some endpoint => !endpoint.isClosed
  | some pc, _ => pc.isBusy
  | none, _ => false

end State

/-- One step of `handleAccept` of the connection `i`. -/
def openStep (s : State) (i : ℕ) (endpoint : MqttEndpoint) : Pc → Option State
  | .start => some (s.setPc i (.read (s.broker.cacheService.isPersistentSession s.clientId)))
  | .read isPersistent =>
      let taken := s.broker.takeWrapper s.clientId endpoint.isCleanSession
      some ({ s with broker := taken.2, latest := some i }.setPc i (.locked isPersistent taken.1))
  | .locked isPersistent old =>
      -- a session that does not go on has no subscriptions
      let kept := if endpoint.isCleanSession || !isPersistent then [] else s.topics
      some ({ s with
        broker := s.broker.teardown s.clientId endpoint.isCleanSession isPersistent old
        topics := kept }.setPc i (.tornDown isPersistent old))
  | .tornDown isPersistent old =>
      let built := s.broker.buildWrapper s.clientId i endpoint.isCleanSession isPersistent old
      some ({ s with broker := built.2 }.setPc i (.built built.1))
  | .built wrapper =>
      match s.broker.openWrapper wrapper with
      | (some wrapper, broker) => some ({ s with broker := broker }.setPc i (.opened wrapper))
      | (none, broker) => some ({ s with broker := broker }.setPc i .returned)
  | .opened wrapper =>
      some ({ s with broker := s.broker.putWrapper s.clientId wrapper }.setPc i .returned)
  | .returned => some ({ s with broker := s.broker.accept i }.setPc i .accepted)
  | .accepted => none

inductive Action where
  /-- another CONNECT of the client comes in -/
  | connect (cleanSession : Bool)
  /-- the next step of `handleAccept` -/
  | accept (i : ℕ)
  | disconnect (i : ℕ)
  /-- `closeSession` up to the lock -/
  | closeCheck (i : ℕ)
  | closeLocked (i : ℕ)
  | subscribeTopic (i : ℕ) (topic : Str) (qos : ℤ)
  | unsubscribeTopic (i : ℕ) (topic : Str)

def step (s : State) : Action → Option State
  | .connect cleanSession =>
      some { s with
        broker := s.broker.addEndpoint s.clientId cleanSession
        pcs := s.pcs ++ [.start] }
  | .accept i =>
      match s.pcs[i]?, s.broker.endpoint i with
      | some pc, some endpoint => openStep s i endpoint pc
      | _, _ => none
  | .disconnect i => some { s with broker := s.broker.disconnect i }
  | .closeCheck i =>
      match s.broker.endpoint i with
      | none => none
      | some endpoint =>
          if !endpoint.isClosed then none
          else if s.broker.mayClose endpoint then some { s with closers := i :: s.closers }
          else some s
  | .closeLocked i =>
      match s.broker.endpoint i with
      | none => none
      | some endpoint =>
          if i ∉ s.closers then none
          else
            some { s with
              broker := s.broker.closeLocked endpoint i
              closers := s.closers.erase i
              -- the session ends with its clean connection, not with a superseded one
              topics := if s.latest = some i ∧ endpoint.isCleanSession then [] else s.topics }
  | .subscribeTopic i topic qos =>
      -- the topics of a SUBSCRIBE are checked before
      if s.broker.isConnected i && TopicUtil.validateTopic topic then
        some { s with
          broker := s.broker.subscribeTopic s.clientId topic qos
          topics := if s.latest = some i then topic :: s.topics else s.topics }
      else none
  | .unsubscribeTopic i topic =>
      if s.broker.isConnected i then
        some { s with
          broker := s.broker.unsubscribeTopic s.clientId topic
          topics := if s.latest = some i then s.topics.filter (· ≠ topic) else s.topics }
      else none

/-- The broker has just started, and the client is not there yet. -/
structure Start (s : State) : Prop where
  valid : IdUtil.validateClientId s.clientId = true
  broker : s.broker.Restarted
  pcs : s.pcs = []
  closers : s.closers = []
  latest : s.latest = none
  topics : ∀ topic, (s.data.routers topic).isSome = true ↔ topic ∈ s.topics

/-- No connection is on its way to its accept. -/
def Settled (s : State) : Prop := ∀ i, s.inWindow i = false

/-- Everything that has begun has come to its end. -/
def Finished (s : State) : Prop := (∀ pc ∈ s.pcs, pc.isAccepted = true) ∧ s.closers = []

instance (s : State) : Decidable (Finished s) := inferInstanceAs (Decidable (_ ∧ _))

/-- At most one connection is connected.  It is the one of the registered wrapper, the wrapper is
of the kind of the record, and the routers are those of the session. -/
structure SingleLive (s : State) : Prop where
  unique : ∀ i j, s.broker.isConnected i = true → s.broker.isConnected j = true → i = j
  registered : ∀ i, s.broker.isConnected i = true → ∃ w, s.wrapper = some w ∧ w.endpoint = i
  kind : ∀ w, s.wrapper = some w → ∃ session, s.data.session = some session ∧
    (w.kind = .transient ↔ session.cleanSession = true)
  routers : ∀ topic, (s.data.routers topic).isSome = true ↔ topic ∈ s.topics

/-- No other connection is on its way to its accept, and a session that is to go on, because the
connection `i` found a persistent one before, has no transient wrapper now. -/
def MayTake (s : State) (i : ℕ) (isPersistent : Bool) : Prop :=
  (∀ j < s.pcs.length, j ≠ i → s.inWindow j = false) ∧
    (s.cleanSession i = true ∨ isPersistent = false ∨
      s.wrapper.map Wrapper.kind ≠ some .transient)

instance (s : State) (i : ℕ) (isPersistent : Bool) : Decidable (MayTake s i isPersistent) :=
  inferInstanceAs (Decidable (_ ∧ _))

/-- A connection takes the lock only if it may. -/
def StepOk (s : State) : Action → Prop
  | .accept i =>
      match s.pcs[i]? with
      | some (.read isPersistent) => MayTake s i isPersistent
      | _ => True
  | _ => True

instance (s : State) : ∀ a, Decidable (StepOk s a)
  | .accept i =>
      match h : s.pcs[i]? with
      | some (.read isPersistent) =>
          decidable_of_iff (MayTake s i isPersistent) (by simp only [StepOk, h])
      | some .start | some (.locked ..) | some (.tornDown ..) | some (.built _)
      | some (.opened _) | some .returned | some .accepted | none =>
          isTrue (by simp only [StepOk, h])
  | .connect _ | .disconnect _ | .closeCheck _ | .closeLocked _ | .subscribeTopic ..
  | .unsubscribeTopic .. => isTrue trivial

/-! ### The invariant -/

/-- The connection is past `openSession`, and its endpoint is open. -/
def Active (s : State) (k : ℕ) : Prop :=
  ∃ pc endpoint, s.pcs[k]? = some pc ∧ pc.isReturned = true ∧
    s.broker.endpoint k = some endpoint ∧ endpoint.isClosed = false

def RoutersOk (s : State) : Prop := ∀ topic, (s.data.routers topic).isSome = true ↔ topic ∈ s.topics

/-- What a persistent wrapper works on is stored. -/
def Stored (s : State) : Prop :=
  (∃ inflights, s.data.inflights = some inflights) ∧ ∃ queue, s.data.queue = some queue

/-- The wrapper is that of the latest connection, and it is the one the record is about. -/
structure Holds (s : State) (w : Wrapper) : Prop where
  client : w.fields.thisClientId = s.clientId
  session : s.data.session =
    some ⟨s.clientId, decide (w.kind = .transient), s.broker.cacheService.thisNodeId⟩
  owner : s.broker.owner w.endpoint = some (s.clientId, decide (w.kind = .transient))
  latest : s.latest = some w.endpoint
  stored : w.kind = .persistent → Stored s

/-- No connection is busy. -/
structure Rest (s : State) : Prop where
  holds : ∀ w, s.wrapper = some w → Holds s w
  active : ∀ k, Active s k → ∃ w, s.wrapper = some w ∧ w.endpoint = k
  routers : RoutersOk s
  /-- a clean session is over when its wrapper is gone -/
  gone : s.wrapper = none → ∀ i, s.latest = some i →
    s.broker.owner i ≠ some (s.clientId, false) → s.topics = []

/-- The busy connection `i` has taken the session. -/
structure Taken (s : State) (i : ℕ) (clean : Bool) : Prop where
  owner : s.broker.owner i = some (s.clientId, clean)
  latest : s.latest = some i
  wrapper : s.wrapper = none
  session : s.data.session = some ⟨s.clientId, clean, s.broker.cacheService.thisNodeId⟩

/-- The old wrapper is one of the client, and if it is to be used again, it can be. -/
def Reusable (s : State) (clean isPersistent : Bool) (old : Option Wrapper) : Prop :=
  ∀ w, old = some w → w.fields.thisClientId = s.clientId ∧
    (clean = false → isPersistent = true → w.kind = .persistent ∧ Stored s)

/-- What holds while the connection `i` is busy. -/
def Phase (s : State) (i : ℕ) : Pc → Prop
  | .locked isPersistent old => ∃ clean, Taken s i clean ∧ Reusable s clean isPersistent old ∧
      (∀ k, Active s k → s.pcs[k]? = some .accepted ∧ ∃ w, old = some w ∧ w.endpoint = k) ∧
      (clean = false → isPersistent = true → RoutersOk s)
  | .tornDown isPersistent old => ∃ clean, Taken s i clean ∧ Reusable s clean isPersistent old ∧
      (∀ k, ¬Active s k) ∧ RoutersOk s ∧ (clean = true → s.topics = [])
  | .built w | .opened w => Holds s w ∧ w.endpoint = i ∧ s.wrapper = none ∧ (∀ k, ¬Active s k) ∧
      RoutersOk s ∧ (w.kind = .transient → s.topics = [])
  | _ => False

/-- At most one connection is busy. -/
def Stage (s : State) : Prop :=
  (∀ (i : ℕ) (pc : Pc), s.pcs[i]? = some pc → pc.isBusy = false) ∧ Rest s ∨
    ∃ (i : ℕ) (pc : Pc), s.pcs[i]? = some pc ∧ pc.isBusy = true ∧
      (∀ (j : ℕ) (pc' : Pc), s.pcs[j]? = some pc' → pc'.isBusy = true → j = i) ∧ Phase s i pc

/-- What holds of the parts of the state by themselves. -/
structure Base (s : State) : Prop where
  valid : IdUtil.validateClientId s.clientId = true
  routers : s.broker.cacheService.routerCache.Consistent
  keyed : s.data.Keyed
  length : s.pcs.length = s.broker.endpoints.length
  endpoint : ∀ k pc endpoint, s.pcs[k]? = some pc → s.broker.endpoint k = some endpoint →
    endpoint.clientIdentifier = s.clientId ∧
      (endpoint.isConnected = true ↔ pc.isAccepted = true ∧ endpoint.isClosed = false)
  closers : ∀ k ∈ s.closers, ∃ endpoint, s.broker.endpoint k = some endpoint ∧
    endpoint.isClosed = true

structure Inv (s : State) : Prop where
  base : Base s
  stage : Stage s

variable {s s' : State}

lemma Base.wrapper_eq (h : Base s) : s.wrapper = s.broker.wrappers.get s.clientId :=
  Broker.getWrapper_eq h.valid

/-- A connection that is connected is active. -/
lemma Base.active (h : Base s) {k : ℕ} (hc : s.broker.isConnected k = true) : Active s k := by
  simp only [Broker.isConnected] at hc
  cases hend : s.broker.endpoint k with
  | none =>
      rw [hend] at hc
      exact absurd hc (by simp)
  | some endpoint =>
      rw [hend] at hc
      have hlt : k < s.pcs.length := by
        rw [h.length]
        exact (List.getElem?_eq_some_iff.1 hend).1
      obtain ⟨pc, hpc⟩ : ∃ pc, s.pcs[k]? = some pc := ⟨_, List.getElem?_eq_getElem hlt⟩
      obtain ⟨haccepted, hopen⟩ := (h.endpoint k pc endpoint hpc hend).2.1 hc
      refine ⟨pc, endpoint, hpc, ?_, hend, hopen⟩
      cases pc <;> first | rfl | exact absurd haccepted (by simp [Pc.isAccepted])

lemma inWindow_of_busy {i : ℕ} {pc : Pc} (hpc : s.pcs[i]? = some pc) (hbusy : pc.isBusy = true) :
    s.inWindow i = true := by
  simp only [State.inWindow]
  rw [hpc]
  cases pc <;> first | exact hbusy | exact absurd hbusy (by simp [Pc.isBusy])

/-- In a settled state the invariant says what is to be shown. -/
lemma Inv.singleLive (h : Inv s) (hsettled : Settled s) : SingleLive s := by
  rcases h.stage with ⟨-, hrest⟩ | ⟨i, pc, hpc, hbusy, -, -⟩
  · have hregistered : ∀ i, s.broker.isConnected i = true →
        ∃ w, s.wrapper = some w ∧ w.endpoint = i := fun i hc => hrest.active i (h.base.active hc)
    refine ⟨fun i j hi hj => ?_, hregistered, fun w hw => ?_, hrest.routers⟩
    · obtain ⟨w, hw, rfl⟩ := hregistered i hi
      obtain ⟨w', hw', rfl⟩ := hregistered j hj
      rw [Option.some.inj (hw.symm.trans hw')]
    · exact ⟨_, (hrest.holds w hw).session, by simp⟩
  · have := hsettled i
    rw [inWindow_of_busy hpc hbusy] at this
    exact absurd this (by simp)

lemma Start.inv (h : Start s) : Inv s := by
  have hnopc : ∀ (i : ℕ) (pc : Pc), s.pcs[i]? ≠ some pc := by
    intro i pc
    rw [h.pcs]
    simp
  have hwrapper : s.wrapper = none := by
    show s.broker.getWrapper s.clientId = none
    rw [Broker.getWrapper_eq h.valid, h.broker.wrappers]
    simp
  refine ⟨⟨h.valid, h.broker.routers, h.broker.keyed _, ?_, ?_, ?_⟩, Or.inl ⟨?_, ?_⟩⟩
  · rw [h.pcs, h.broker.endpoints]
    rfl
  · exact fun k pc endpoint hpc => absurd hpc (hnopc k pc)
  · rw [h.closers]
    simp
  · exact fun i pc hpc => absurd hpc (hnopc i pc)
  · refine ⟨fun w hw => ?_, fun k hk => ?_, h.topics, fun _ i hi => ?_⟩
    · exact absurd (hwrapper.symm.trans hw) (by simp)
    · obtain ⟨pc, endpoint, hpc, -⟩ := hk
      exact absurd hpc (hnopc k pc)
    · exact absurd (h.latest.symm.trans hi) (by simp)

/-! ### Steps that leave the session alone -/

/-- The endpoints are the same, but that some may have been closed. -/
structure Closes (b b' : Broker) : Prop where
  length : b'.endpoints.length = b.endpoints.length
  endpoint : ∀ k, b'.endpoint k = b.endpoint k ∨
    b'.endpoint k = (b.endpoint k).map MqttEndpoint.close

lemma Closes.congr {b b' b'' : Broker} (h : Closes b b') (heq : b''.endpoints = b'.endpoints) :
    Closes b b'' := by
  have hends : ∀ k, b''.endpoint k = b'.endpoint k := fun k => congrArg (fun l => l[k]?) heq
  exact ⟨by rw [heq, h.length], fun k => hends k ▸ h.endpoint k⟩

lemma Closes.of_eq {b b' : Broker} (h : b'.endpoints = b.endpoints) : Closes b b' :=
  Closes.congr ⟨rfl, fun _ => Or.inl rfl⟩ h

lemma closes_disconnect (b : Broker) (i : ℕ) : Closes b (b.disconnect i) := by
  refine ⟨?_, fun k => ?_⟩
  · simp only [Broker.disconnect, Broker.setEndpoint]
    split
    · exact length_set
    · rfl
  · rw [Broker.endpoint_disconnect]
    split_ifs with heq
    · rw [heq]
      exact Or.inr rfl
    · exact Or.inl rfl

lemma closes_closeOld (b : Broker) (old : Option Wrapper) : Closes b (b.closeOld old) := by
  cases old with
  | none => exact Closes.of_eq rfl
  | some w =>
      show Closes b (b.closeEndpoint w)
      simp only [Broker.closeEndpoint]
      split_ifs
      · exact closes_disconnect b _
      · exact Closes.of_eq rfl

/-- An endpoint that is open now was there before, and was open. -/
lemma Closes.of_open {b b' : Broker} (h : Closes b b') {k : ℕ} {endpoint : MqttEndpoint}
    (hend : b'.endpoint k = some endpoint) (hopen : endpoint.isClosed = false) :
    b.endpoint k = some endpoint := by
  rcases h.endpoint k with heq | heq
  · rw [← heq, hend]
  · rw [heq, Option.map_eq_some_iff] at hend
    obtain ⟨before, -, rfl⟩ := hend
    exact absurd hopen (by simp [MqttEndpoint.close])

/-- A step that changes no connection's accept, closes endpoints at most, and keeps the caches in
order. -/
lemma Base.move (h : Base s) {broker : Broker} {pcs : List Pc} {closers : List ℕ}
    {latest : Option ℕ} {topics : List Str}
    (hrouters : broker.cacheService.routerCache.Consistent)
    (hkeyed : (broker.cacheService.data s.clientId).Keyed) (hcloses : Closes s.broker broker)
    (hlength : pcs.length = s.pcs.length)
    (hpcs : ∀ (k : ℕ) (pc : Pc), pcs[k]? = some pc →
      ∃ before, s.pcs[k]? = some before ∧ pc.isAccepted = before.isAccepted)
    (hclosers : ∀ k ∈ closers, k ∈ s.closers ∨
      ∃ endpoint, s.broker.endpoint k = some endpoint ∧ endpoint.isClosed = true) :
    Base ⟨s.clientId, broker, pcs, closers, latest, topics⟩ := by
  refine ⟨h.valid, hrouters, hkeyed, ?_, fun k pc endpoint hpc hend => ?_, fun k hk => ?_⟩
  · exact hlength.trans (h.length.trans hcloses.length.symm)
  · obtain ⟨before, hbefore, haccepted⟩ := hpcs k pc hpc
    rw [haccepted]
    rcases hcloses.endpoint k with heq | heq
    · exact h.endpoint k before endpoint hbefore (heq.symm.trans hend)
    · obtain ⟨old, hold, rfl⟩ := Option.map_eq_some_iff.1 (heq.symm.trans hend)
      refine ⟨(h.endpoint k before old hbefore hold).1, ?_⟩
      simp [MqttEndpoint.close]
  · obtain ⟨endpoint, hend, hclosed⟩ := (hclosers k hk).elim (h.closers k) id
    rcases hcloses.endpoint k with heq | heq
    · exact ⟨endpoint, heq.trans hend, hclosed⟩
    · exact ⟨endpoint.close, by rw [heq, hend]; rfl, rfl⟩

/-- The same caches and wrappers. -/
def State.moved (s : State) (endpoints : List MqttEndpoint) (pcs : List Pc) (closers : List ℕ) :
    State :=
  { s with broker := { s.broker with endpoints := endpoints }, pcs := pcs, closers := closers }

/-- A step that only moves connections, and of no busy one, leaves the stage as it is. -/
lemma Stage.moved (h : Stage s) (endpoints : List MqttEndpoint) (pcs : List Pc)
    (closers : List ℕ) (hs' : s' = s.moved endpoints pcs closers)
    (howner : ∀ k o, s.broker.owner k = some o → s'.broker.owner k = some o)
    (hactive : ∀ k, Active s' k → Active s k)
    (haccepted : ∀ k : ℕ, s.pcs[k]? = some Pc.accepted → pcs[k]? = some Pc.accepted)
    (hbusy : ∀ (k : ℕ) (pc : Pc), pc.isBusy = true → (pcs[k]? = some pc ↔ s.pcs[k]? = some pc)) :
    Stage s' := by
  have hpcs : s'.pcs = pcs := by rw [hs']; rfl
  -- each part of the stage looks at caches and wrappers only, which are the same
  have hheld : ∀ w, Holds s w → Holds s' w := fun w hw => by
    subst hs'
    exact ⟨hw.client, hw.session, howner _ _ hw.owner, hw.latest, hw.stored⟩
  have htaken : ∀ i clean, Taken s i clean → Taken s' i clean := fun i clean ht => by
    subst hs'
    exact ⟨howner _ _ ht.owner, ht.latest, ht.wrapper, ht.session⟩
  have hrouters : RoutersOk s → RoutersOk s' := fun hr => by
    subst hs'
    exact hr
  have hreusable : ∀ clean isPersistent old, Reusable s clean isPersistent old →
      Reusable s' clean isPersistent old := fun _ _ _ hre => by
    subst hs'
    exact hre
  have hwrapper : s'.wrapper = s.wrapper := by rw [hs']; rfl
  have htopics : s'.topics = s.topics := by rw [hs']; rfl
  rcases h with ⟨hnone, hrest⟩ | ⟨i, pc, hpc, hb, hone, hphase⟩
  · refine Or.inl ⟨fun k pc hpc => ?_, fun w hw => ?_, fun k hk => ?_, hrouters hrest.routers,
      fun hw k hk hne => ?_⟩
    · rw [hpcs] at hpc
      by_contra hb
      rw [Bool.not_eq_false] at hb
      rw [hnone k pc ((hbusy k pc hb).1 hpc)] at hb
      exact absurd hb (by simp)
    · rw [hwrapper] at hw
      exact hheld w (hrest.holds w hw)
    · rw [hwrapper]
      exact hrest.active k (hactive k hk)
    · rw [htopics]
      rw [hwrapper] at hw
      subst hs'
      exact hrest.gone hw k hk fun heq => hne (howner k _ heq)
  · refine Or.inr ⟨i, pc, by rw [hpcs]; exact (hbusy i pc hb).2 hpc, hb,
      fun j pc' hpc' hb' => ?_, ?_⟩
    · rw [hpcs] at hpc'
      exact hone j pc' ((hbusy j pc' hb').1 hpc') hb'
    · cases pc with
      -- before the teardown others may still be connected, and stay accepted
      | locked isPersistent old =>
          obtain ⟨clean, ht, hre, hact, hr⟩ := hphase
          refine ⟨clean, htaken i clean ht, hreusable _ _ _ hre, fun k hk => ?_,
            fun hclean hpers => hrouters (hr hclean hpers)⟩
          rw [hpcs]
          exact (hact k (hactive k hk)).imp_left (haccepted k)
      | tornDown isPersistent old =>
          obtain ⟨clean, ht, hre, hact, hr, htop⟩ := hphase
          refine ⟨clean, htaken i clean ht, hreusable _ _ _ hre,
            fun k hk => hact k (hactive k hk), hrouters hr, ?_⟩
          rw [htopics]
          exact htop
      | built w | opened w =>
          obtain ⟨hw, hi, hnone, hact, hr, htop⟩ := hphase
          refine ⟨hheld w hw, hi, hwrapper.trans hnone, fun k hk => hact k (hactive k hk),
            hrouters hr, ?_⟩
          rw [htopics]
          exact htop
      | start | read _ | returned | accepted => exact hphase.elim

/-! ### The simple steps -/

lemma Active.of_closes {k : ℕ} (h : Active s' k) (hpcs : s'.pcs = s.pcs)
    (hcloses : Closes s.broker s'.broker) : Active s k := by
  obtain ⟨pc, endpoint, hpc, hreturned, hend, hopen⟩ := h
  exact ⟨pc, endpoint, hpcs ▸ hpc, hreturned, hcloses.of_open hend hopen, hopen⟩

/-- Another connection comes in. -/
lemma Inv.connect (h : Inv s) (cleanSession : Bool) :
    Inv { s with
      broker := s.broker.addEndpoint s.clientId cleanSession
      pcs := s.pcs ++ [.start] } := by
  have hlength := h.base.length
  have hget : ∀ (k : ℕ) (pc : Pc), (s.pcs ++ [Pc.start])[k]? = some pc ↔
      s.pcs[k]? = some pc ∨ k = s.pcs.length ∧ pc = .start := fun k pc =>
    getElem?_concat_eq_some
  refine ⟨⟨h.base.valid, h.base.routers, h.base.keyed, ?_, fun k pc endpoint hpc hend => ?_,
    fun k hk => ?_⟩, ?_⟩
  · simp [Broker.addEndpoint, hlength]
  · rw [Broker.endpoint_addEndpoint] at hend
    rcases (hget k pc).1 hpc with hold | ⟨hk, rfl⟩
    · have hlt := (List.getElem?_eq_some_iff.1 hold).1
      rw [if_neg (by omega)] at hend
      exact h.base.endpoint k pc endpoint hold hend
    · rw [if_pos (hk.trans hlength)] at hend
      obtain rfl := Option.some.inj hend
      exact ⟨rfl, by simp [MqttEndpoint.create, Pc.isAccepted]⟩
  · obtain ⟨endpoint, hend, hclosed⟩ := h.base.closers k hk
    refine ⟨endpoint, ?_, hclosed⟩
    rw [Broker.endpoint_addEndpoint, if_neg, hend]
    have hlt := (List.getElem?_eq_some_iff.1 hend).1
    omega
  · refine h.stage.moved (s.broker.addEndpoint s.clientId cleanSession).endpoints
      (s.pcs ++ [.start]) s.closers rfl (fun k o ho => ?_) (fun k hk => ?_)
      (fun k hk => (hget k _).2 (Or.inl hk)) fun k pc hb => ?_
    · rw [Broker.owner_addEndpoint, if_neg, ho]
      intro hk
      -- the new endpoint had no owner before
      rw [hk, Broker.owner_of_le le_rfl] at ho
      exact absurd ho (by simp)
    · obtain ⟨pc, endpoint, hpc, hreturned, hend, hopen⟩ := hk
      rcases (hget k pc).1 hpc with hold | ⟨-, rfl⟩
      · have hlt := (List.getElem?_eq_some_iff.1 hold).1
        rw [Broker.endpoint_addEndpoint, if_neg (by omega)] at hend
        exact ⟨pc, endpoint, hold, hreturned, hend, hopen⟩
      · exact absurd hreturned (by simp [Pc.isReturned])
    · rw [hget]
      refine ⟨fun hor => hor.elim id fun hand => ?_, Or.inl⟩
      rw [hand.2] at hb
      exact absurd hb (by simp [Pc.isBusy])

lemma disconnect_eq (b : Broker) (i : ℕ) :
    b.disconnect i = { b with endpoints := (b.disconnect i).endpoints } := by
  simp only [Broker.disconnect]
  split <;> rfl

lemma accept_eq (b : Broker) (i : ℕ) :
    b.accept i = { b with endpoints := (b.accept i).endpoints } := by
  simp only [Broker.accept]
  split
  · rfl
  · split <;> rfl

/-- A connection ends. -/
lemma Inv.disconnect (h : Inv s) (i : ℕ) : Inv { s with broker := s.broker.disconnect i } := by
  have hcloses := closes_disconnect s.broker i
  refine ⟨h.base.move ?_ ?_ hcloses rfl (fun k pc hpc => ⟨pc, hpc, rfl⟩) fun k => Or.inl, ?_⟩
  · rw [Broker.disconnect_cacheService]
    exact h.base.routers
  · rw [Broker.disconnect_cacheService]
    exact h.base.keyed
  · refine h.stage.moved (s.broker.disconnect i).endpoints s.pcs s.closers ?_ (fun k o ho => ?_)
      (fun k hk => hk.of_closes rfl hcloses) (fun _ => id) fun _ _ _ => Iff.rfl
    · exact congrArg (fun b => { s with broker := b }) (disconnect_eq s.broker i)
    · exact ((Broker.sameElse_disconnect i s.clientId).owner k).trans ho

lemma Inv.closeCheck (h : Inv s) {i : ℕ} {endpoint : MqttEndpoint}
    (hend : s.broker.endpoint i = some endpoint) (hclosed : endpoint.isClosed = true) :
    Inv { s with closers := i :: s.closers } := by
  refine ⟨h.base.move h.base.routers h.base.keyed (Closes.of_eq rfl) rfl
    (fun k pc hpc => ⟨pc, hpc, rfl⟩) fun k hk => ?_, ?_⟩
  · rcases mem_cons.1 hk with rfl | hk
    · exact Or.inr ⟨endpoint, hend, hclosed⟩
    · exact Or.inl hk
  · exact h.stage.moved s.broker.endpoints s.pcs (i :: s.closers) rfl (fun _ _ => id)
      (fun k hk => hk.of_closes rfl (Closes.of_eq rfl)) (fun _ => id) fun _ _ _ => Iff.rfl

section Steps

variable {i : ℕ} {endpoint : MqttEndpoint}

/-- One connection goes on, and whether it is accepted stays as it was. -/
lemma accepted_set {pc pc' : Pc} (hpc : s.pcs[i]? = some pc)
    (heq : pc'.isAccepted = pc.isAccepted) (k : ℕ) (pc'' : Pc)
    (hk : (s.pcs.set i pc')[k]? = some pc'') :
    ∃ before, s.pcs[k]? = some before ∧ pc''.isAccepted = before.isAccepted := by
  rw [getElem?_set_of_some hpc] at hk
  split_ifs at hk with hki
  · obtain rfl := Option.some.inj hk
    exact ⟨pc, hki ▸ hpc, heq⟩
  · exact ⟨pc'', hk, rfl⟩

/-- The connection goes on within `openSession`; the others are active if they were. -/
lemma Active.of_set {k : ℕ} (h : Active s' k) {pc pc' : Pc} (hpcs : s'.pcs = s.pcs.set i pc')
    (hpc : s.pcs[i]? = some pc) (hnot : pc'.isReturned = false)
    (hcloses : Closes s.broker s'.broker) : k ≠ i ∧ Active s k := by
  obtain ⟨pc'', e, hk, hreturned, hend, hopen⟩ := h
  rw [hpcs, getElem?_set_of_some hpc] at hk
  split_ifs at hk with heq
  · obtain rfl := Option.some.inj hk
    exact absurd (hreturned.symm.trans hnot) (by simp)
  · exact ⟨heq, pc'', e, hk, hreturned, hcloses.of_open hend hopen, hopen⟩

/-- A connection that is not busy goes on to where it is not busy. -/
lemma Stage.setPc (h : Stage s) {pc : Pc} (hpc : s.pcs[i]? = some pc) (pc' : Pc)
    (hidle : pc.isBusy = false) (hidle' : pc'.isBusy = false) (hnot : pc.isAccepted = false)
    {endpoints : List MqttEndpoint} (hs' : s' = s.moved endpoints (s.pcs.set i pc') s.closers)
    (howner : ∀ k o, s.broker.owner k = some o → s'.broker.owner k = some o)
    (hactive : ∀ k, Active s' k → Active s k) : Stage s' := by
  have hget := getElem?_set_of_some hpc pc'
  refine h.moved endpoints _ s.closers hs' howner hactive (fun k hk => ?_) fun k pc'' hb => ?_
  · rw [hget k, if_neg, hk]
    rintro rfl
    obtain rfl := Option.some.inj (hpc.symm.trans hk)
    exact absurd hnot (by simp [Pc.isAccepted])
  · rw [hget k]
    split_ifs with heq
    · rw [heq, hpc, Option.some.injEq, Option.some.injEq]
      constructor
      · rintro rfl
        exact absurd (hb.symm.trans hidle') (by simp)
      · rintro rfl
        exact absurd (hb.symm.trans hidle) (by simp)
    · exact Iff.rfl

/-- The connection reads whether the session is persistent. -/
lemma Inv.read (h : Inv s) (hpc : s.pcs[i]? = some .start) (isPersistent : Bool) :
    Inv (s.setPc i (.read isPersistent)) := by
  refine ⟨h.base.move h.base.routers h.base.keyed (Closes.of_eq rfl) length_set
    (accepted_set hpc rfl) fun k => Or.inl, ?_⟩
  exact h.stage.setPc hpc (.read isPersistent) rfl rfl rfl rfl (fun _ _ => id) fun k hk =>
    (hk.of_set rfl hpc rfl (Closes.of_eq rfl)).2

/-- What `accept` does to the endpoints: an open one is connected. -/
lemma endpoint_accept {b : Broker} (hend : b.endpoint i = some endpoint) :
    (b.accept i).endpoints.length = b.endpoints.length ∧
      ∀ k, (b.accept i).endpoint k =
        if k = i ∧ endpoint.isClosed = false then some { endpoint with isConnected := true }
        else b.endpoint k := by
  simp only [Broker.accept, MqttEndpoint.accept]
  rw [hend]
  by_cases hclosed : endpoint.isClosed = true
  · simp [hclosed]
  · rw [Bool.not_eq_true] at hclosed
    simp only [hclosed, and_true]
    exact ⟨length_set, Broker.endpoint_setEndpoint hend⟩

/-- The endpoint is accepted. -/
lemma Inv.accept (h : Inv s) (hpc : s.pcs[i]? = some .returned)
    (hend : s.broker.endpoint i = some endpoint) :
    Inv ({ s with broker := s.broker.accept i }.setPc i .accepted) := by
  have hget := getElem?_set_of_some hpc .accepted
  obtain ⟨hlength, hends⟩ := endpoint_accept hend
  obtain ⟨hclient, hconnected⟩ := h.base.endpoint i .returned endpoint hpc hend
  have hnot : endpoint.isConnected = false := by
    rw [← Bool.not_eq_true, hconnected]
    simp [Pc.isAccepted]
  refine ⟨⟨h.base.valid, ?_, ?_, ?_, fun k pc e hk he => ?_, fun k hk => ?_⟩, ?_⟩
  · show (s.broker.accept i).cacheService.routerCache.Consistent
    rw [Broker.accept_cacheService]
    exact h.base.routers
  · show ((s.broker.accept i).cacheService.data s.clientId).Keyed
    rw [Broker.accept_cacheService]
    exact h.base.keyed
  · exact length_set.trans (h.base.length.trans hlength.symm)
  · have hk' := (hget k).symm.trans hk
    have he' := (hends k).symm.trans he
    by_cases heq : k = i
    · subst heq
      obtain rfl := Option.some.inj ((if_pos rfl).symm.trans hk')
      -- an endpoint that was closed before its accept is not connected
      by_cases hclosed : endpoint.isClosed = false
      · obtain rfl := Option.some.inj ((if_pos ⟨rfl, hclosed⟩).symm.trans he')
        exact ⟨hclient, by simp [hclosed, Pc.isAccepted]⟩
      · rw [if_neg (by simp [hclosed]), hend] at he'
        obtain rfl := Option.some.inj he'
        exact ⟨hclient, by simp [hclosed, hnot]⟩
    · rw [if_neg heq] at hk'
      rw [if_neg fun hand => heq hand.1] at he'
      exact h.base.endpoint k pc e hk' he'
  · obtain ⟨e, he, hclosed⟩ := h.base.closers k hk
    refine ⟨e, (hends k).trans ?_, hclosed⟩
    rw [if_neg, he]
    rintro ⟨rfl, hopen⟩
    obtain rfl := Option.some.inj (hend.symm.trans he)
    exact absurd (hopen.symm.trans hclosed) (by simp)
  · have hmoved : { s with broker := s.broker.accept i }.setPc i .accepted =
        s.moved (s.broker.accept i).endpoints (s.pcs.set i .accepted) s.closers :=
      congrArg (fun b => { s with broker := b }.setPc i .accepted) (accept_eq s.broker i)
    refine h.stage.setPc hpc .accepted rfl rfl rfl hmoved (fun k o ho => ?_) fun k hk => ?_
    · exact ((Broker.sameElse_accept i s.clientId).owner k).trans ho
    · obtain ⟨pc, e, hk, hreturned, he, hopen⟩ := hk
      have hk' := (hget k).symm.trans hk
      have he' := (hends k).symm.trans he
      by_cases heq : k = i
      · subst heq
        refine ⟨.returned, endpoint, hpc, rfl, hend, ?_⟩
        by_contra hclosed
        rw [if_neg fun hand => hclosed hand.2, hend, Option.some.injEq] at he'
        rw [he'] at hclosed
        exact hclosed hopen
      · rw [if_neg heq] at hk'
        rw [if_neg fun hand => heq hand.1] at he'
        exact ⟨pc, e, hk', hreturned, he', hopen⟩

/-! ### The steps of a busy connection -/

/-- No other connection is busy. -/
def Alone (s : State) (i : ℕ) : Prop :=
  ∀ (j : ℕ) (pc : Pc), j ≠ i → s.pcs[j]? = some pc → pc.isBusy = false

lemma Stage.phase (h : Stage s) {pc : Pc} (hpc : s.pcs[i]? = some pc) (hbusy : pc.isBusy = true) :
    Alone s i ∧ Phase s i pc := by
  rcases h with ⟨hnone, -⟩ | ⟨j, pc', hpc', -, hone, hphase⟩
  · exact absurd (hbusy.symm.trans (hnone i pc hpc)) (by simp)
  · obtain rfl := hone i pc hpc hbusy
    obtain rfl := Option.some.inj (hpc.symm.trans hpc')
    refine ⟨fun j pc' hne hj => ?_, hphase⟩
    by_contra hb
    exact hne (hone j pc' hj (by simpa using hb))

/-- When a connection may take the lock, none is busy. -/
lemma Stage.rest (h : Stage s) {isPersistent : Bool} (hpc : s.pcs[i]? = some (.read isPersistent))
    (hmay : MayTake s i isPersistent) : Alone s i ∧ Rest s := by
  rcases h with ⟨hnone, hrest⟩ | ⟨j, pc, hj, hbusy, -, -⟩
  · exact ⟨fun j pc _ hj => hnone j pc hj, hrest⟩
  · have hne : j ≠ i := by
      rintro rfl
      obtain rfl := Option.some.inj (hpc.symm.trans hj)
      exact absurd hbusy (by simp [Pc.isBusy])
    have hnot := hmay.1 j (List.getElem?_eq_some_iff.1 hj).1 hne
    exact absurd ((inWindow_of_busy hj hbusy).symm.trans hnot) (by simp)

lemma Stage.of_phase {pc pc' : Pc} (hpc : s.pcs[i]? = some pc) (halone : Alone s i)
    (hbusy : pc'.isBusy = true) (hpcs : s'.pcs = s.pcs.set i pc') (hphase : Phase s' i pc') :
    Stage s' := by
  have hget := getElem?_set_of_some hpc pc'
  refine Or.inr ⟨i, pc', ?_, hbusy, fun j pc'' hj hb => ?_, hphase⟩
  · rw [hpcs, hget, if_pos rfl]
  · by_contra hne
    rw [hpcs, hget, if_neg hne] at hj
    exact absurd (hb.symm.trans (halone j pc'' hne hj)) (by simp)

/-- A connection that may take the lock finds every active endpoint in the registered wrapper. -/
lemma MayTake.accepted {isPersistent : Bool} (hmay : MayTake s i isPersistent) {k : ℕ}
    (hne : k ≠ i) (hk : Active s k) : s.pcs[k]? = some .accepted := by
  obtain ⟨pc, e, hpc, hreturned, hend, hopen⟩ := hk
  have hnot := hmay.1 k (List.getElem?_eq_some_iff.1 hpc).1 hne
  simp only [State.inWindow] at hnot
  rw [hpc, hend] at hnot
  cases pc with
  | accepted => exact hpc
  | returned => exact absurd hnot (by simp [hopen])
  | start | read _ | locked _ _ | tornDown _ _ | built _ | opened _ =>
      exact absurd hreturned (by simp [Pc.isReturned])

/-- The locked section of `openSession`. -/
lemma Inv.take (h : Inv s) {isPersistent : Bool} (hpc : s.pcs[i]? = some (.read isPersistent))
    (hend : s.broker.endpoint i = some endpoint) (hmay : MayTake s i isPersistent) :
    Inv ({ s with
      broker := (s.broker.takeWrapper s.clientId endpoint.isCleanSession).2
      latest := some i }.setPc i (.locked isPersistent
        (s.broker.takeWrapper s.clientId endpoint.isCleanSession).1)) := by
  obtain ⟨halone, hrest⟩ := h.stage.rest hpc hmay
  obtain ⟨hold, hsame, hnone, hends, hdata⟩ :=
    Broker.takeWrapper_spec (b := s.broker) h.base.valid endpoint.isCleanSession
  set taken := s.broker.takeWrapper s.clientId endpoint.isCleanSession
  have hold' : taken.1 = s.wrapper := hold.trans h.base.wrapper_eq.symm
  have hcloses : Closes s.broker taken.2 := Closes.of_eq hends
  have hclient := (h.base.endpoint i _ endpoint hpc hend).1
  have hsession : (taken.2.cacheService.data s.clientId).session =
      some ⟨s.clientId, endpoint.isCleanSession, taken.2.cacheService.thisNodeId⟩ := by
    rw [hdata, hsame.cache.thisNodeId]
  have hrouters : (taken.2.cacheService.data s.clientId).routers = s.data.routers := by
    rw [hdata]
    rfl
  have hinflights : (taken.2.cacheService.data s.clientId).inflights = s.data.inflights := by
    rw [hdata]
    rfl
  have hqueue : (taken.2.cacheService.data s.clientId).queue = s.data.queue := by
    rw [hdata]
    rfl
  refine ⟨h.base.move (hsame.cache.routers h.base.routers) ?_ hcloses length_set
    (accepted_set hpc rfl) fun k => Or.inl, ?_⟩
  · rw [hdata]
    exact h.base.keyed
  · refine Stage.of_phase hpc halone rfl rfl
      ⟨endpoint.isCleanSession, ⟨?_, rfl, ?_, ?_⟩, fun w hw => ?_, fun k hk => ?_, fun _ _ => ?_⟩
    · refine (hsame.owner i).trans ?_
      simp only [Broker.owner]
      rw [hend, Option.map_some, hclient]
      rfl
    · exact (Broker.getWrapper_eq h.base.valid).trans hnone
    · exact hsession
    -- the wrapper that is taken out can be used again only for a persistent session
    · have hw' := hrest.holds w (hold'.symm.trans hw)
      refine ⟨hw'.client, fun hclean hpers => ?_⟩
      -- the condition on the lock: what was read before is the kind of the wrapper
      have hkind : w.kind = .persistent := by
        rcases hmay.2 with hc | hp | hk
        · simp only [State.cleanSession] at hc
          rw [hend] at hc
          exact absurd (hclean.symm.trans hc) (by simp)
        · exact absurd (hpers.symm.trans hp) (by simp)
        · rw [← hold', hw, Option.map_some] at hk
          cases hw : w.kind with
          | transient => exact absurd (congrArg some hw) hk
          | persistent => rfl
      obtain ⟨⟨inflights, hi⟩, queue, hq⟩ := hw'.stored hkind
      exact ⟨hkind, ⟨inflights, hinflights.trans hi⟩, queue, hqueue.trans hq⟩
    · obtain ⟨hne, hactive⟩ : k ≠ i ∧ Active s k := hk.of_set rfl hpc rfl hcloses
      refine ⟨?_, ?_⟩
      · refine (getElem?_set_of_some hpc _ k).trans ?_
        rw [if_neg hne]
        exact hmay.accepted hne hactive
      · rw [hold']
        exact hrest.active k hactive
    · intro topic
      show ((taken.2.cacheService.data s.clientId).routers topic).isSome = true ↔ topic ∈ s.topics
      rw [hrouters]
      exact hrest.routers topic

lemma Taken.clean_eq {clean : Bool} (h : Taken s i clean)
    (hend : s.broker.endpoint i = some endpoint) : clean = endpoint.isCleanSession := by
  have howner := h.owner
  simp only [Broker.owner] at howner
  rw [hend, Option.map_some, Option.some.injEq, Prod.mk.injEq] at howner
  exact howner.2.symm

/-- What the teardown leaves of the stores: all of them, if the session is to go on, and none that
is not in order. -/
lemma teardown_stores {b : Broker} {clientId : Str}
    (hr : b.cacheService.routerCache.Consistent) (hv : IdUtil.validateClientId clientId = true)
    {cleanSession isPersistent : Bool} {old : Option Wrapper}
    (hold : ∀ w, old = some w → w.fields.thisClientId = clientId)
    (hk : (b.cacheService.data clientId).Keyed) :
    (cleanSession = false → isPersistent = true →
        (b.teardown clientId cleanSession isPersistent old).cacheService = b.cacheService) ∧
      ((b.teardown clientId cleanSession isPersistent old).cacheService.data clientId).Keyed := by
  rcases @Broker.teardown_cases b clientId cleanSession isPersistent old hold with
    ⟨-, -, h⟩ | ⟨hdestroy, h | ⟨-, -, h⟩⟩
  · rw [h, Broker.closeOld_cacheService]
    exact ⟨fun _ _ => rfl, hk⟩
  · refine ⟨fun hclean hpers => ?_, ?_⟩
    · rw [hclean, hpers] at hdestroy
      exact absurd hdestroy (by simp)
    · rw [h]
      show ((b.cacheService.destroyPersistentSession clientId).data clientId).Keyed
      rw [CacheService.data_destroyPersistentSession hr hv, if_pos rfl]
      exact fun inflights hi => absurd hi (by simp)
  · refine ⟨fun hclean hpers => ?_, ?_⟩
    · rw [hclean, hpers] at hdestroy
      exact absurd hdestroy (by simp)
    · rw [h]
      show ((b.cacheService.destroyTransientSession clientId).data clientId).Keyed
      rw [CacheService.data_destroyTransientSession hr hv, if_pos rfl]
      exact hk

/-- Close or destroy the old state. -/
lemma Inv.teardown (h : Inv s) {isPersistent : Bool} {old : Option Wrapper}
    (hpc : s.pcs[i]? = some (.locked isPersistent old))
    (hend : s.broker.endpoint i = some endpoint) :
    Inv ({ s with
      broker := s.broker.teardown s.clientId endpoint.isCleanSession isPersistent old
      topics := if endpoint.isCleanSession || !isPersistent then [] else s.topics }.setPc i
        (.tornDown isPersistent old)) := by
  obtain ⟨halone, clean, htaken, hreusable, hactive, hrouters⟩ := h.stage.phase hpc rfl
  obtain rfl := htaken.clean_eq hend
  have hold : ∀ w, old = some w → w.fields.thisClientId = s.clientId := fun w hw =>
    (hreusable w hw).1
  obtain ⟨hkept, hkeyed⟩ := @teardown_stores s.broker s.clientId h.base.routers h.base.valid
    endpoint.isCleanSession isPersistent old hold h.base.keyed
  obtain ⟨hsame, hwrappers, hends, hsession, hrouters'⟩ :=
    Broker.teardown_spec h.base.routers h.base.valid hold
      (rfl : s.broker.teardown s.clientId endpoint.isCleanSession isPersistent old = _)
  set b' := s.broker.teardown s.clientId endpoint.isCleanSession isPersistent old
  have hcloses : Closes s.broker b' := (closes_closeOld s.broker old).congr hends
  refine ⟨h.base.move (hsame.cache.routers h.base.routers) hkeyed hcloses length_set
    (accepted_set hpc rfl) fun k => Or.inl, ?_⟩
  refine Stage.of_phase hpc halone rfl rfl
    ⟨endpoint.isCleanSession, ⟨?_, htaken.latest, ?_, ?_⟩, fun w hw => ?_, fun k hk => ?_,
      fun topic => ?_, fun hclean => ?_⟩
  · exact (hsame.owner i).trans htaken.owner
  · refine (Broker.getWrapper_eq h.base.valid).trans ?_
    show b'.wrappers.get s.clientId = none
    rw [hwrappers]
    exact h.base.wrapper_eq.symm.trans htaken.wrapper
  · show (b'.cacheService.data s.clientId).session =
      some ⟨s.clientId, _, b'.cacheService.thisNodeId⟩
    rw [hsession, hsame.cache.thisNodeId]
    exact htaken.session
  · refine ⟨hold w hw, fun hclean hpers => ?_⟩
    obtain ⟨hkind, hstored⟩ := (hreusable w hw).2 hclean hpers
    have hdata : b'.cacheService.data s.clientId = s.data := by
      rw [hkept hclean hpers]
      rfl
    refine ⟨hkind, ?_⟩
    show (∃ inflights, (b'.cacheService.data s.clientId).inflights = some inflights) ∧
      ∃ queue, (b'.cacheService.data s.clientId).queue = some queue
    rw [hdata]
    exact hstored
  · -- the endpoint of the old wrapper was the only active one, and it is closed
    obtain ⟨-, hbefore⟩ : k ≠ i ∧ Active s k := hk.of_set rfl hpc rfl hcloses
    obtain ⟨haccepted, w, rfl, rfl⟩ := hactive k hbefore
    obtain ⟨_, e, _, _, he, hopen⟩ := hbefore
    obtain ⟨_, e', _, _, he', hopen'⟩ := hk
    have hconnected : e.isConnected = true :=
      (h.base.endpoint w.endpoint .accepted e haccepted he).2.2 ⟨rfl, hopen⟩
    have hclosed : b'.endpoint w.endpoint = some e.close := by
      have hclose := Broker.endpoint_closeEndpoint (b := s.broker) w w.endpoint
      rw [he, Option.map_some, if_pos ⟨rfl, hconnected⟩] at hclose
      exact (congrArg (fun l => l[w.endpoint]?) hends).trans hclose
    obtain rfl := Option.some.inj (hclosed.symm.trans he')
    exact absurd hopen' (by simp [MqttEndpoint.close])
  · show ((b'.cacheService.data s.clientId).routers topic).isSome = true ↔
      topic ∈ if endpoint.isCleanSession || !isPersistent then [] else s.topics
    rw [hrouters']
    -- a session that does not go on has no routers left
    by_cases hfresh : endpoint.isCleanSession = true ∨ isPersistent = false
    · rw [if_pos hfresh, if_pos (by simpa using hfresh)]
      simp
    · rw [if_neg hfresh, if_neg (by simpa using hfresh)]
      simp only [not_or, Bool.not_eq_true, Bool.not_eq_false] at hfresh
      exact hrouters hfresh.1 hfresh.2 topic
  · exact if_pos (by rw [hclean]; rfl)

/-- What a part of `openSession` after the teardown does: its wrapper is one of the client and of
the new connection, a persistent one has what it works on, and the session goes on. -/
structure Builds (b b' : Broker) (clientId : Str) (id : ℕ) (w : Wrapper) : Prop where
  client : w.fields.thisClientId = clientId
  endpoint : w.endpoint = id
  same : Broker.SameElse b b' clientId
  wrappers : b'.wrappers = b.wrappers
  endpoints : b'.endpoints = b.endpoints
  session : (b'.cacheService.data clientId).session = (b.cacheService.data clientId).session
  routers : ∀ topic, ((b'.cacheService.data clientId).routers topic).isSome =
    ((b.cacheService.data clientId).routers topic).isSome
  keyed : (b'.cacheService.data clientId).Keyed
  stored : w.kind = .persistent →
    (∃ inflights, (b'.cacheService.data clientId).inflights = some inflights) ∧
      ∃ queue, (b'.cacheService.data clientId).queue = some queue

/-- A new persistent wrapper. -/
lemma builds_newPersistent {b : Broker} {clientId : Str} (hk : (b.cacheService.data clientId).Keyed)
    (id : ℕ) :
    Builds b (b.newPersistent clientId id).2 clientId id (b.newPersistent clientId id).1 := by
  obtain ⟨hsame, hwrappers, hends, hdata⟩ := @Broker.newPersistent_spec b clientId id
  obtain ⟨-, ⟨inflights, hi, hkeyed, -⟩, queue, hq, -⟩ :=
    @Broker.continues_newPersistent b clientId hk id
  refine ⟨rfl, rfl, hsame, hwrappers, hends, ?_, fun topic => ?_, fun m hm => ?_,
    fun _ => ⟨⟨inflights, hi⟩, queue, hq⟩⟩
  · rw [hdata]
  · rw [hdata]
  · obtain rfl := Option.some.inj (hi.symm.trans hm)
    exact hkeyed

/-- The wrapper that is built is of the kind of the new record. -/
lemma builds_buildWrapper {b : Broker} {clientId : Str} {clean isPersistent : Bool}
    {old : Option Wrapper} (hk : (b.cacheService.data clientId).Keyed)
    (hold : ∀ w, old = some w → w.fields.thisClientId = clientId ∧
      (clean = false → isPersistent = true → w.kind = .persistent ∧
        (∃ inflights, (b.cacheService.data clientId).inflights = some inflights) ∧
        ∃ queue, (b.cacheService.data clientId).queue = some queue)) (id : ℕ) :
    ∃ w b', b.buildWrapper clientId id clean isPersistent old = (w, b') ∧
      clean = decide (w.kind = .transient) ∧ Builds b b' clientId id w := by
  have hnew := builds_newPersistent hk id
  simp only [Broker.buildWrapper]
  cases clean with
  | true =>
      exact ⟨_, b, rfl, rfl, rfl, rfl, .refl _ _, rfl, rfl, rfl, fun _ => rfl, hk,
        fun h => by cases h⟩
  | false =>
      cases old with
      | none => exact ⟨_, _, rfl, rfl, hnew⟩
      | some w =>
          cases isPersistent with
          | false => exact ⟨_, _, rfl, rfl, hnew⟩
          | true =>
              obtain ⟨hclient, hreuse⟩ := hold w rfl
              obtain ⟨hkind, hstored⟩ := hreuse rfl rfl
              cases w with
              | transient fields queue inflights awaits => cases hkind
              | persistent fields =>
                  exact ⟨_, b, rfl, rfl, hclient, rfl, .refl _ _, rfl, rfl, rfl, fun _ => rfl, hk,
                    fun _ => hstored⟩

/-- `open()` before the accept opens what was built. -/
lemma builds_openWrapper {b : Broker} (hr : b.cacheService.routerCache.Consistent) {clientId : Str}
    (hk : (b.cacheService.data clientId).Keyed) {w : Wrapper}
    (hclient : w.fields.thisClientId = clientId) (hend : b.endpoint w.endpoint = some endpoint)
    (hnot : endpoint.isConnected = false)
    (hstored : w.kind = .persistent →
      (∃ inflights, (b.cacheService.data clientId).inflights = some inflights) ∧
        ∃ queue, (b.cacheService.data clientId).queue = some queue) :
    ∃ w' b', b.openWrapper w = (some w', b') ∧ w'.kind = w.kind ∧
      Builds b b' clientId w.endpoint w' := by
  cases w with
  | transient fields queue inflights awaits =>
      exact ⟨_, b, rfl, rfl, hclient, rfl, .refl _ _, rfl, rfl, rfl, fun _ => rfl, hk,
        fun h => by cases h⟩
  | persistent fields =>
      obtain ⟨⟨inflights, hi⟩, queue, hq⟩ := hstored rfl
      obtain ⟨fields', b', inflights', hopen, hclient, hid, hsame, hwrappers, hends, hkeyed, -,
        hdata⟩ := Broker.openWrapper_spec hr hclient hend hnot hq hi (hk inflights hi)
      refine ⟨_, b', hopen, rfl, hclient, hid, hsame, hwrappers, hends, ?_, fun topic => ?_,
        fun m hm => ?_, fun _ => ⟨⟨inflights', ?_⟩, queue, ?_⟩⟩
      · rw [hdata]
      · rw [hdata]
        exact Option.isSome_map
      · rw [hdata] at hm
        obtain rfl := Option.some.inj hm
        exact hkeyed
      · rw [hdata]
      · rw [hdata]
        exact hq

/-- The connection goes on with its wrapper. -/
lemma Inv.of_builds (h : Inv s) {pc pc' : Pc} (hpc : s.pcs[i]? = some pc) (halone : Alone s i)
    {w : Wrapper} {b' : Broker} (hbuilds : Builds s.broker b' s.clientId i w)
    (hpc' : pc' = .built w ∨ pc' = .opened w) (haccepted : pc.isAccepted = false)
    (howner : s.broker.owner i = some (s.clientId, decide (w.kind = .transient)))
    (hlatest : s.latest = some i)
    (hsession : s.data.session =
      some ⟨s.clientId, decide (w.kind = .transient), s.broker.cacheService.thisNodeId⟩)
    (hnone : s.wrapper = none) (hactive : ∀ k, ¬Active s k) (hrouters : RoutersOk s)
    (htopics : w.kind = .transient → s.topics = []) :
    Inv ({ s with broker := b' }.setPc i pc') := by
  have hcloses : Closes s.broker b' := Closes.of_eq hbuilds.endpoints
  have hbusy : pc'.isBusy = true ∧ pc'.isReturned = false ∧ pc'.isAccepted = false := by
    rcases hpc' with rfl | rfl <;> exact ⟨rfl, rfl, rfl⟩
  refine ⟨h.base.move (hbuilds.same.cache.routers h.base.routers) hbuilds.keyed hcloses length_set
    (accepted_set hpc (hbusy.2.2.trans haccepted.symm)) fun k => Or.inl, ?_⟩
  refine Stage.of_phase hpc halone hbusy.1 rfl ?_
  -- the two phases ask for the same
  have hphase : Holds ({ s with broker := b' }.setPc i pc') w ∧ w.endpoint = i ∧
      ({ s with broker := b' }.setPc i pc').wrapper = none ∧
      (∀ k, ¬Active ({ s with broker := b' }.setPc i pc') k) ∧
      RoutersOk ({ s with broker := b' }.setPc i pc') ∧ (w.kind = .transient → s.topics = []) := by
    refine ⟨⟨hbuilds.client, ?_, ?_, ?_, hbuilds.stored⟩, hbuilds.endpoint, ?_, fun k hk => ?_,
      fun topic => ?_, htopics⟩
    · show (b'.cacheService.data s.clientId).session =
        some ⟨s.clientId, decide (w.kind = .transient), b'.cacheService.thisNodeId⟩
      rw [hbuilds.session, hbuilds.same.cache.thisNodeId]
      exact hsession
    · rw [hbuilds.endpoint]
      exact (hbuilds.same.owner i).trans howner
    · rw [hbuilds.endpoint]
      exact hlatest
    · refine (Broker.getWrapper_eq h.base.valid).trans ?_
      show b'.wrappers.get s.clientId = none
      rw [hbuilds.wrappers]
      exact h.base.wrapper_eq.symm.trans hnone
    · have hbefore : k ≠ i ∧ Active s k := hk.of_set rfl hpc hbusy.2.1 hcloses
      exact hactive k hbefore.2
    · show ((b'.cacheService.data s.clientId).routers topic).isSome = true ↔ topic ∈ s.topics
      rw [hbuilds.routers]
      exact hrouters topic
  rcases hpc' with rfl | rfl <;> exact hphase

/-- Build the wrapper. -/
lemma Inv.build (h : Inv s) {isPersistent : Bool} {old : Option Wrapper}
    (hpc : s.pcs[i]? = some (.tornDown isPersistent old))
    (hend : s.broker.endpoint i = some endpoint) :
    Inv ({ s with broker := (s.broker.buildWrapper s.clientId i endpoint.isCleanSession isPersistent
      old).2 }.setPc i (.built (s.broker.buildWrapper s.clientId i endpoint.isCleanSession
        isPersistent old).1)) := by
  obtain ⟨halone, clean, htaken, hreusable, hactive, hrouters, htopics⟩ := h.stage.phase hpc rfl
  obtain rfl := htaken.clean_eq hend
  obtain ⟨w, b', hbuild, hkind, hbuilds⟩ := builds_buildWrapper h.base.keyed hreusable i
  rw [hbuild]
  refine h.of_builds hpc halone hbuilds (Or.inl rfl) rfl ?_ htaken.latest ?_ htaken.wrapper hactive
    hrouters fun hk => htopics ?_
  · rw [← hkind]
    exact htaken.owner
  · rw [← hkind]
    exact htaken.session
  · rw [hkind, hk]
    rfl

/-- `open()` before the accept. -/
lemma Inv.openWrapper (h : Inv s) {w : Wrapper} (hpc : s.pcs[i]? = some (.built w))
    (hend : s.broker.endpoint i = some endpoint) :
    ∃ w' b', s.broker.openWrapper w = (some w', b') ∧
      Inv ({ s with broker := b' }.setPc i (.opened w')) := by
  obtain ⟨halone, hholds, rfl, hnone, hactive, hrouters, htopics⟩ := h.stage.phase hpc rfl
  have hnot : endpoint.isConnected = false := by
    have hconnected := (h.base.endpoint w.endpoint _ endpoint hpc hend).2
    rw [← Bool.not_eq_true, hconnected]
    simp [Pc.isAccepted]
  obtain ⟨w', b', hopen, hkind, hbuilds⟩ :=
    builds_openWrapper h.base.routers h.base.keyed hholds.client hend hnot hholds.stored
  refine ⟨w', b', hopen, h.of_builds hpc halone hbuilds (Or.inr rfl) rfl ?_ hholds.latest ?_ hnone
    hactive hrouters fun hk => htopics (hkind.symm.trans hk)⟩
  · rw [hkind]
    exact hholds.owner
  · rw [hkind]
    exact hholds.session

/-- The wrapper is registered. -/
lemma Inv.put (h : Inv s) {w : Wrapper} (hpc : s.pcs[i]? = some (.opened w)) :
    Inv ({ s with broker := s.broker.putWrapper s.clientId w }.setPc i .returned) := by
  obtain ⟨halone, hholds, hid, -, hactive, hrouters, -⟩ := h.stage.phase hpc rfl
  have hput := Broker.putWrapper_eq (b := s.broker) h.base.valid w
  rw [hput]
  have hget := getElem?_set_of_some hpc .returned
  have hwrapper : State.wrapper ({ s with broker := { s.broker with
      wrappers := s.broker.wrappers.put s.clientId w } }.setPc i .returned) = some w :=
    (Broker.getWrapper_eq h.base.valid).trans (PlainMap.get_put_self _ _ _)
  refine ⟨h.base.move h.base.routers h.base.keyed (Closes.of_eq rfl) length_set
    (accepted_set hpc rfl) fun k => Or.inl, Or.inl ⟨fun k pc hk => ?_, fun w' hw' => ?_,
      fun k hk => ?_, hrouters, fun hw' => ?_⟩⟩
  · have hk' := (hget k).symm.trans hk
    split_ifs at hk' with heq
    · obtain rfl := Option.some.inj hk'
      rfl
    · exact halone k pc heq hk'
  · obtain rfl := Option.some.inj (hwrapper.symm.trans hw')
    exact ⟨hholds.client, hholds.session, hholds.owner, hholds.latest, hholds.stored⟩
  · refine ⟨w, hwrapper, ?_⟩
    obtain ⟨pc, e, hk, hreturned, hend, hopen⟩ := hk
    have hk' := (hget k).symm.trans hk
    split_ifs at hk' with heq
    · exact hid.trans heq.symm
    · exact absurd ⟨pc, e, hk', hreturned, hend, hopen⟩ (hactive k)
  · exact absurd (hwrapper.symm.trans hw') (by simp)

/-! ### Closing, subscribing and unsubscribing -/

/-- A close that finds nothing to remove may still end the session of the latest connection, if it
is a clean one that has not begun, or is over already. -/
lemma Stage.close_nothing (h : Stage s) (hnot : ∀ w, s.wrapper = some w → w.endpoint ≠ i)
    (hlatest : s.latest = some i) (howner : s.broker.owner i = some (s.clientId, true)) :
    Stage { s with topics := [] } := by
  have hself : s.topics = [] → { s with topics := [] } = s := fun hnil => by
    cases s
    simp only [State.mk.injEq, true_and]
    exact hnil.symm
  have hcur : ∀ j, s.latest = some j → j = i := fun j hj =>
    Option.some.inj (hj.symm.trans hlatest)
  rcases h with ⟨hnone, hrest⟩ | ⟨j, pc, hpc, hb, hone, hphase⟩
  · have hgone : s.wrapper = none := by
      cases hw : s.wrapper with
      | none => rfl
      | some w => exact absurd (hcur _ (hrest.holds w hw).latest) (hnot w hw)
    rw [hself (hrest.gone hgone i hlatest (by rw [howner]; simp))]
    exact Or.inl ⟨hnone, hrest⟩
  · cases pc with
    | locked isPersistent old =>
        obtain ⟨clean, ht, hre, hact, -⟩ := hphase
        obtain rfl := hcur j ht.latest
        have hclean : clean = true := by
          have := ht.owner.symm.trans howner
          simpa using this
        refine Or.inr ⟨j, _, hpc, hb, hone, clean,
          ⟨ht.owner, ht.latest, ht.wrapper, ht.session⟩, hre, hact, fun hfalse => ?_⟩
        exact absurd (hfalse.symm.trans hclean) (by simp)
    | tornDown isPersistent old =>
        obtain ⟨clean, ht, hre, hact, hr, htop⟩ := hphase
        obtain rfl := hcur j ht.latest
        have hclean : clean = true := by
          have := ht.owner.symm.trans howner
          simpa using this
        rw [hself (htop hclean)]
        exact Or.inr ⟨j, _, hpc, hb, hone, clean, ht, hre, hact, hr, htop⟩
    | built w | opened w =>
        obtain ⟨hw, hid, hgone, hact, hr, htop⟩ := hphase
        have hkind : w.kind = .transient := by
          have := hw.owner
          rw [hcur _ hw.latest, howner] at this
          simpa using this
        rw [hself (htop hkind)]
        exact Or.inr ⟨j, _, hpc, hb, hone, hw, hid, hgone, hact, hr, htop⟩
    | start | read _ | returned | accepted => exact hphase.elim

/-- While a wrapper is registered no connection is busy. -/
lemma Stage.rest_of_wrapper (h : Stage s) {w : Wrapper} (hw : s.wrapper = some w) :
    (∀ (i : ℕ) (pc : Pc), s.pcs[i]? = some pc → pc.isBusy = false) ∧ Rest s := by
  rcases h with hrest | ⟨j, pc, -, -, -, hphase⟩
  · exact hrest
  · have hnone : s.wrapper = none := by
      cases pc with
      | locked isPersistent old =>
          obtain ⟨clean, ht, -⟩ := hphase
          exact ht.wrapper
      | tornDown isPersistent old =>
          obtain ⟨clean, ht, -⟩ := hphase
          exact ht.wrapper
      | built w | opened w =>
          obtain ⟨-, -, hnone, -⟩ := hphase
          exact hnone
      | start | read _ | returned | accepted => exact hphase.elim
    exact absurd (hw.symm.trans hnone) (by simp)

/-- The registered wrapper is removed when its endpoint has closed. -/
lemma Inv.removed (h : Inv s) (hnone : ∀ (i : ℕ) (pc : Pc), s.pcs[i]? = some pc → pc.isBusy = false)
    (hactive : ∀ k, ¬Active s k) {cacheService : CacheService} {closers : List ℕ}
    {topics : List Str}
    (hsame : CacheService.SameElse s.broker.cacheService cacheService s.clientId)
    (hkeyed : (cacheService.data s.clientId).Keyed)
    (hrouters : ∀ topic, ((cacheService.data s.clientId).routers topic).isSome = true ↔
      topic ∈ topics)
    (hgone : ∀ k, s.latest = some k → s.broker.owner k ≠ some (s.clientId, false) → topics = [])
    (hclosers : ∀ k ∈ closers, k ∈ s.closers ∨
      ∃ endpoint, s.broker.endpoint k = some endpoint ∧ endpoint.isClosed = true) :
    Inv { s with
      broker := { s.broker with
        cacheService := cacheService
        wrappers := s.broker.wrappers.remove s.clientId }
      closers := closers
      topics := topics } := by
  have hwrapper : Broker.getWrapper { s.broker with
      cacheService := cacheService
      wrappers := s.broker.wrappers.remove s.clientId } s.clientId = none :=
    (Broker.getWrapper_eq h.base.valid).trans (PlainMap.get_remove_self _ _)
  refine ⟨h.base.move (hsame.routers h.base.routers) hkeyed (Closes.of_eq rfl) rfl
    (fun k pc hk => ⟨pc, hk, rfl⟩) hclosers,
    Or.inl ⟨hnone, fun w hw => ?_, fun k hk => ?_, hrouters, fun _ k hk hne => hgone k hk hne⟩⟩
  · cases hwrapper.symm.trans hw
  · have hbefore : Active s k := hk.of_closes rfl (Closes.of_eq rfl)
    exact absurd hbefore (hactive k)

/-- The locked part of `closeSession`. -/
lemma Inv.closeLocked (h : Inv s) (hend : s.broker.endpoint i = some endpoint)
    (hmem : i ∈ s.closers) :
    Inv { s with
      broker := s.broker.closeLocked endpoint i
      closers := s.closers.erase i
      topics := if s.latest = some i ∧ endpoint.isCleanSession then [] else s.topics } := by
  obtain ⟨pc, hpc⟩ : ∃ pc, s.pcs[i]? = some pc := by
    refine ⟨_, List.getElem?_eq_getElem ?_⟩
    rw [h.base.length]
    exact (List.getElem?_eq_some_iff.1 hend).1
  have hclient := (h.base.endpoint i pc endpoint hpc hend).1
  have howner : s.broker.owner i = some (s.clientId, endpoint.isCleanSession) := by
    simp only [Broker.owner]
    rw [hend, Option.map_some, hclient]
  have hclosers : ∀ k ∈ s.closers.erase i, k ∈ s.closers ∨
      ∃ endpoint, s.broker.endpoint k = some endpoint ∧ endpoint.isClosed = true :=
    fun k hk => Or.inl (mem_of_mem_erase hk)
  have hcases := Broker.closeLocked_cases (b := s.broker) endpoint i
  rw [hclient] at hcases
  -- the wrapper was taken over, or there is none: the caches stay
  rcases hcases with ⟨hnot, heq⟩ | ⟨w, hget, hid, hcases⟩
  · rw [heq]
    refine ⟨h.base.move h.base.routers h.base.keyed (Closes.of_eq rfl) rfl
      (fun k pc hk => ⟨pc, hk, rfl⟩) hclosers, ?_⟩
    have hstage : Stage { s with
        topics := if s.latest = some i ∧ endpoint.isCleanSession then [] else s.topics } := by
      split_ifs with hsession
      · refine h.stage.close_nothing hnot hsession.1 ?_
        rw [howner, hsession.2]
      · exact h.stage
    exact hstage.moved s.broker.endpoints s.pcs (s.closers.erase i) rfl (fun _ _ => id)
      (fun k hk => hk.of_closes rfl (Closes.of_eq rfl)) (fun _ => id) fun _ _ _ => Iff.rfl
  · obtain ⟨hnone, hrest⟩ := h.stage.rest_of_wrapper hget
    have hholds := hrest.holds w hget
    have hlatest : s.latest = some i := hid ▸ hholds.latest
    -- the only active connection would be the one that closes
    have hactive : ∀ k, ¬Active s k := by
      rintro k hk
      obtain ⟨w', hw', rfl⟩ := hrest.active k hk
      obtain rfl := Option.some.inj (hget.symm.trans hw')
      obtain ⟨e, he, hclosed⟩ := h.base.closers i hmem
      obtain ⟨_, e', _, _, he', hopen⟩ := hk
      rw [hid, he] at he'
      rw [Option.some.inj he'] at hclosed
      exact absurd (hclosed.symm.trans hopen) (by simp)
    have hrem := Broker.removeWrapper_eq (b := s.broker) h.base.valid
    -- only the wrapper is removed, or a clean session with all that it stored
    rcases hcases with ⟨hnode, heq⟩ | ⟨hclosed, heq⟩
    · have hnotclean : endpoint.isCleanSession = false := by
        have howner' := hholds.owner
        rw [hid, howner, Option.some_inj, Prod.mk.injEq] at howner'
        by_contra hc
        have hs := hholds.session
        simp only [State.data] at hs
        rw [← CacheService.getSession_eq h.base.valid, ← howner'.2] at hs
        exact hnode _ hs (by simpa using hc) rfl
      rw [heq, hrem, if_neg (by simp [hnotclean])]
      refine h.removed hnone hactive (.refl _ _) h.base.keyed hrest.routers (fun k hk hne => ?_)
        hclosers
      obtain rfl := Option.some.inj (hlatest.symm.trans hk)
      exact absurd (hnotclean ▸ howner) hne
    · obtain ⟨hsame, hdata⟩ := Broker.data_closeClean h.base.routers h.base.valid
      rw [heq, hrem, if_pos ⟨hlatest, hclosed⟩]
      refine h.removed hnone hactive hsame ?_ (fun topic => ?_) (fun _ _ _ => rfl) hclosers
      · rw [hdata]
        exact h.base.keyed
      · rw [hdata]
        simp

/-- A connection that is connected is the one of the registered wrapper; or no wrapper is
registered, and the session is another connection's. -/
lemma Inv.of_connected (h : Inv s) (hc : s.broker.isConnected i = true) :
    s.wrapper = none ∧ s.latest ≠ some i ∨ ∃ w, s.wrapper = some w ∧ s.latest = some i := by
  have hactive := h.base.active hc
  rcases h.stage with ⟨-, hrest⟩ | ⟨j, pc, hpc, -, -, hphase⟩
  · obtain ⟨w, hw, rfl⟩ := hrest.active i hactive
    exact Or.inr ⟨w, hw, (hrest.holds w hw).latest⟩
  · cases pc with
    | locked isPersistent old =>
        obtain ⟨clean, ht, -, hact, -⟩ := hphase
        refine Or.inl ⟨ht.wrapper, fun hlatest => ?_⟩
        obtain rfl := Option.some.inj (ht.latest.symm.trans hlatest)
        exact absurd (hpc.symm.trans (hact j hactive).1) (by simp)
    | tornDown isPersistent old =>
        obtain ⟨clean, -, -, hact, -⟩ := hphase
        exact absurd hactive (hact i)
    | built w | opened w =>
        obtain ⟨-, -, -, hact, -⟩ := hphase
        exact absurd hactive (hact i)
    | start | read _ | returned | accepted => exact hphase.elim

/-- The routers of the client change with the topics of the session. -/
lemma Inv.withRouters (h : Inv s) {w : Wrapper} (hw : s.wrapper = some w)
    {cacheService : CacheService} {routers : Str → Option MqttRouter} {topics : List Str}
    (hsame : CacheService.SameElse s.broker.cacheService cacheService s.clientId)
    (hdata : cacheService.data s.clientId = { s.data with routers := routers })
    (hrouters : ∀ topic, (routers topic).isSome = true ↔ topic ∈ topics) :
    Inv { s with broker := s.broker.withCache cacheService, topics := topics } := by
  obtain ⟨hnone, hrest⟩ := h.stage.rest_of_wrapper hw
  refine ⟨h.base.move (hsame.routers h.base.routers) ?_ (Closes.of_eq rfl) rfl
    (fun k pc hk => ⟨pc, hk, rfl⟩) fun k => Or.inl, Or.inl ⟨hnone, fun w' hw' => ?_, fun k hk => ?_,
      fun topic => ?_, fun hgone => ?_⟩⟩
  · show (cacheService.data s.clientId).Keyed
    rw [hdata]
    exact h.base.keyed
  · have hholds := hrest.holds w' hw'
    refine ⟨hholds.client, ?_, hholds.owner, hholds.latest, fun hkind => ?_⟩
    · show (cacheService.data s.clientId).session = some ⟨_, _, cacheService.thisNodeId⟩
      rw [hdata, hsame.thisNodeId]
      exact hholds.session
    · show (∃ inflights, (cacheService.data s.clientId).inflights = some inflights) ∧
        ∃ queue, (cacheService.data s.clientId).queue = some queue
      rw [hdata]
      exact hholds.stored hkind
  · exact hrest.active k (hk.of_closes rfl (Closes.of_eq rfl))
  · show ((cacheService.data s.clientId).routers topic).isSome = true ↔ topic ∈ topics
    rw [hdata]
    exact hrouters topic
  · exact absurd (hw.symm.trans hgone) (by simp)

lemma Inv.subscribeTopic (h : Inv s) (hc : s.broker.isConnected i = true) {topic : Str}
    (htopic : TopicUtil.validateTopic topic = true) (qos : ℤ) :
    Inv { s with
      broker := s.broker.subscribeTopic s.clientId topic qos
      topics := if s.latest = some i then topic :: s.topics else s.topics } := by
  simp only [Broker.subscribeTopic]
  rcases h.of_connected hc with ⟨hnone, hlatest⟩ | ⟨w, hw, hlatest⟩
  · rw [show s.broker.getWrapper s.clientId = none from hnone, if_neg hlatest]
    exact h
  · have hrest := (h.stage.rest_of_wrapper hw).2
    rw [show s.broker.getWrapper s.clientId = some w from hw, if_pos hlatest]
    dsimp only
    rw [(hrest.holds w hw).client]
    have hdata := @CacheService.data_saveRouter s.broker.cacheService s.clientId h.base.routers
      topic qos s.clientId
    rw [if_pos ⟨rfl, h.base.valid, htopic⟩] at hdata
    refine h.withRouters hw (CacheService.sameElse_saveRouter h.base.routers topic qos) hdata
      fun topic' => ?_
    rw [mem_cons, ← hrest.routers topic']
    by_cases heq : topic' = topic <;> simp [heq, State.data]

lemma Inv.unsubscribeTopic (h : Inv s) (hc : s.broker.isConnected i = true) (topic : Str) :
    Inv { s with
      broker := s.broker.unsubscribeTopic s.clientId topic
      topics := if s.latest = some i then s.topics.filter (· ≠ topic) else s.topics } := by
  simp only [Broker.unsubscribeTopic]
  rcases h.of_connected hc with ⟨hnone, hlatest⟩ | ⟨w, hw, hlatest⟩
  · rw [show s.broker.getWrapper s.clientId = none from hnone, if_neg hlatest]
    exact h
  · have hrest := (h.stage.rest_of_wrapper hw).2
    rw [show s.broker.getWrapper s.clientId = some w from hw, if_pos hlatest]
    dsimp only
    rw [(hrest.holds w hw).client]
    have hdata := @CacheService.data_deleteRouter s.broker.cacheService s.clientId h.base.routers
      topic s.clientId
    rw [if_pos rfl] at hdata
    refine h.withRouters hw (CacheService.sameElse_deleteRouter h.base.routers topic) hdata
      fun topic' => ?_
    rw [mem_filter, ← hrest.routers topic']
    by_cases heq : topic' = topic <;> simp [heq, State.data]

end Steps

/-! ### Every run -/

lemma Inv.openStep (h : Inv s) {i : ℕ} {pc : Pc} {endpoint : MqttEndpoint}
    (hpc : s.pcs[i]? = some pc) (hend : s.broker.endpoint i = some endpoint)
    (hok : StepOk s (.accept i)) (hstep : openStep s i endpoint pc = some s') : Inv s' := by
  cases pc with
  | start =>
      obtain rfl := Option.some.inj hstep
      exact h.read hpc _
  | read isPersistent =>
      unfold StepOk at hok
      dsimp only at hok
      rw [hpc] at hok
      obtain rfl := Option.some.inj hstep
      exact h.take hpc hend hok
  | locked isPersistent old =>
      obtain rfl := Option.some.inj hstep
      exact h.teardown hpc hend
  | tornDown isPersistent old =>
      obtain rfl := Option.some.inj hstep
      exact h.build hpc hend
  | built w =>
      obtain ⟨w', b', hopen, hinv⟩ := h.openWrapper hpc hend
      unfold Takeover.openStep at hstep
      dsimp only at hstep
      rw [hopen] at hstep
      obtain rfl := Option.some.inj hstep
      exact hinv
  | opened w =>
      obtain rfl := Option.some.inj hstep
      exact h.put hpc
  | returned =>
      obtain rfl := Option.some.inj hstep
      exact h.accept hpc hend
  | accepted => exact absurd hstep (by simp [Takeover.openStep])

lemma Inv.step (h : Inv s) {a : Action} (hok : StepOk s a) (hstep : step s a = some s') :
    Inv s' := by
  simp only [Takeover.step] at hstep
  cases a with
  | connect cleanSession =>
      obtain rfl := Option.some.inj hstep
      exact h.connect cleanSession
  | accept i =>
      dsimp only at hstep
      cases hpc : s.pcs[i]? with
      | none =>
          rw [hpc] at hstep
          exact absurd hstep (by simp)
      | some pc =>
          cases hend : s.broker.endpoint i with
          | none =>
              rw [hpc, hend] at hstep
              exact absurd hstep (by simp)
          | some endpoint =>
              rw [hpc, hend] at hstep
              exact h.openStep hpc hend hok hstep
  | disconnect i =>
      obtain rfl := Option.some.inj hstep
      exact h.disconnect i
  | closeCheck i =>
      dsimp only at hstep
      cases hend : s.broker.endpoint i with
      | none =>
          rw [hend] at hstep
          exact absurd hstep (by simp)
      | some endpoint =>
          rw [hend] at hstep
          dsimp only at hstep
          split_ifs at hstep with hclosed hmay
          · obtain rfl := Option.some.inj hstep
            exact h.closeCheck hend (by simpa using hclosed)
          · obtain rfl := Option.some.inj hstep
            exact h
  | closeLocked i =>
      dsimp only at hstep
      cases hend : s.broker.endpoint i with
      | none =>
          rw [hend] at hstep
          exact absurd hstep (by simp)
      | some endpoint =>
          rw [hend] at hstep
          dsimp only at hstep
          by_cases hmem : i ∈ s.closers
          · rw [if_neg (by simpa using hmem)] at hstep
            obtain rfl := Option.some.inj hstep
            exact h.closeLocked hend hmem
          · rw [if_pos hmem] at hstep
            exact absurd hstep (by simp)
  | subscribeTopic i topic qos =>
      dsimp only at hstep
      by_cases hc : (s.broker.isConnected i && TopicUtil.validateTopic topic) = true
      · rw [if_pos hc] at hstep
        rw [Bool.and_eq_true] at hc
        obtain rfl := Option.some.inj hstep
        exact h.subscribeTopic hc.1 hc.2 qos
      · rw [if_neg hc] at hstep
        exact absurd hstep (by simp)
  | unsubscribeTopic i topic =>
      dsimp only at hstep
      by_cases hc : s.broker.isConnected i = true
      · rw [if_pos hc] at hstep
        obtain rfl := Option.some.inj hstep
        exact h.unsubscribeTopic hc topic
      · rw [if_neg hc] at hstep
        exact absurd hstep (by simp)

/-- **A single live session.**  Any number of connections of one client come and go in any
interleaving, and each of them takes the lock only when it may.  Whenever none is on its way to its
accept, at most one is connected; it is the one of the registered wrapper, the wrapper is of the
kind of the record, and the routers are those of the session. -/
theorem single_live_run (s : State) (hs : Start s) (actions : List Action)
    (hok : AllSteps step StepOk s actions) (t : State) (hrun : run step s actions = some t)
    (hsettled : Settled t) : SingleLive t :=
  (invariant_run (fun _ _ _ _ hu huok hstep => Inv.step hu huok hstep) hs.inv hok hrun).singleLive
    hsettled

lemma Finished.settled (h : Finished s) : Settled s := by
  intro i
  simp only [State.inWindow]
  cases hpc : s.pcs[i]? with
  | none => rfl
  | some pc =>
      have haccepted := h.1 pc (List.mem_of_getElem? hpc)
      cases pc with
      | accepted => rfl
      | start | read _ | locked _ _ | tornDown _ _ | built _ | opened _ | returned =>
          exact absurd haccepted (by simp [Pc.isAccepted])

/-- A broker that has just started, and nothing stored. -/
def fresh : State where
  clientId := ['c']
  broker := Broker.initial sampleConfig 1
  pcs := []
  closers := []
  latest := none
  topics := []

lemma start_fresh : Start fresh :=
  ⟨by decide, Broker.restarted_initial sampleConfig 1, rfl, rfl, rfl,
    fun _ => iff_of_false Bool.false_ne_true not_mem_nil⟩

/-- The second connection takes the session over, and the first one closes late. -/
def lateClose : List Action :=
  .connect false :: replicate 7 (.accept 0) ++ [.subscribeTopic 0 ['t'] 1, .connect false] ++
    replicate 7 (.accept 1) ++ [.closeCheck 0, .closeLocked 0]

theorem single_live_run_late : ∃ t, run step fresh lateClose = some t ∧
    t.broker.isConnected 1 = true ∧ t.topics = [['t']] ∧ SingleLive t := by
  obtain ⟨t, hrun, hconnected, htopics, hfinished⟩ : ∃ t, run step fresh lateClose = some t ∧
      t.broker.isConnected 1 = true ∧ t.topics = [['t']] ∧ Finished t :=
    ⟨_, rfl, by decide, by decide, by decide⟩
  exact ⟨t, hrun, hconnected, htopics,
    single_live_run fresh start_fresh lateClose (by decide) t hrun hfinished.settled⟩

/-- Two connections of which each takes the lock before the other one's wrapper is registered. -/
def bothLocked : List Action :=
  [.connect true, .connect true, .accept 0, .accept 0, .accept 1, .accept 1] ++
    replicate 5 (.accept 0) ++ replicate 5 (.accept 1)

theorem not_single_live : ¬∀ (s : State), Start s → ∀ (actions : List Action) (t : State),
    run step s actions = some t → Finished t → SingleLive t := by
  intro h
  obtain ⟨t, hrun, hfirst, hsecond, hfinished⟩ : ∃ t, run step fresh bothLocked = some t ∧
      t.broker.isConnected 0 = true ∧ t.broker.isConnected 1 = true ∧ Finished t :=
    ⟨_, rfl, by decide, by decide, by decide⟩
  have hsame := (h fresh start_fresh bothLocked t hrun hfinished).unique 0 1 hfirst hsecond
  exact absurd hsame (by decide)

end Takeover

end Stuart
