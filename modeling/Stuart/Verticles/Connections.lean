/-
The connection counters of a node with a TCP and a WebSocket listener.

The records of the connections are shared by the listeners, one record for each client; the
counters are not.  `saveConnection` raises the counter of its listener when the client has no
record, and puts its listener into the record.  `deleteConnection` lowers the counter of its
listener when the connection is the one of the registered wrapper.  So a counter is the number of
records of its listener as long as no client changes the listener while it has a record.

Every handler runs to its end before the next one starts.
-/
import Stuart.Lib.Runs
import Stuart.Services.Lifecycle

namespace Stuart

open List Lib StringUtils

namespace Connections

inductive Listener where
  | tcp
  | wsp
deriving DecidableEq

inductive MqttConnectReturnCode where
  | connectionRefusedUseAnotherServer
  | connectionRefusedIdentifierRejected
  | connectionRefusedNotAuthorized
  | connectionRefusedBadUserNameOrPassword
deriving DecidableEq

structure MqttAuth where
  username : Option Str
  password : Option Str

/-- What `handleEndpoint` and `saveConnection` read of the endpoint of a CONNECT. -/
structure Connect where
  clientIdentifier : Str
  isCleanSession : Bool
  auth : Option MqttAuth

structure ConnectConfig where
  mqttClientIdMaxLen : ℕ
  isAuthAllowAnonymous : Bool
  /-- there is an `authService` -/
  hasAuthService : Bool

/-- What becomes of a CONNECT. -/
inductive Answer where
  | reject (code : MqttConnectReturnCode)
  | accept
  /-- the authentication service is asked, and calls the handler back -/
  | ask
deriving DecidableEq

def Answer.IsReject : Answer → Prop
  | .reject _ => True
  | _ => False

instance : ∀ answer : Answer, Decidable answer.IsReject
  | .reject _ => inferInstanceAs (Decidable True)
  | .accept | .ask => inferInstanceAs (Decidable False)

def hasAuth : Option MqttAuth → Bool
  | none => false
  | some auth => !(isBlank auth.username || isBlank auth.password)

/-- The checks of `handleEndpoint`. -/
def ConnectConfig.handleEndpoint (config : ConnectConfig) (limited : Bool) (connect : Connect) :
    Answer :=
  if limited then .reject .connectionRefusedUseAnotherServer
  else if !IdUtil.validateClientId connect.clientIdentifier ||
      decide (utf16Length connect.clientIdentifier > config.mqttClientIdMaxLen) then
    .reject .connectionRefusedIdentifierRejected
  else if config.isAuthAllowAnonymous then .accept
  else if !hasAuth connect.auth then .reject .connectionRefusedNotAuthorized
  else if config.hasAuthService then .ask
  else .reject .connectionRefusedBadUserNameOrPassword

/-- The handler that the authentication service calls with its result. -/
def handleAuth (res : Bool) : Answer :=
  if res then .accept else .reject .connectionRefusedBadUserNameOrPassword

/-- The stored record of a connection. -/
structure MqttConnection where
  clientId : Str
  cleanSession : Bool
  /-- the address and port of the client, by which one tells its connections apart -/
  remote : ℕ
  listener : Listener

structure Node where
  config : ConnectConfig
  connMaxLimit : Listener → ℤ
  broker : Broker
  connectionCache : PlainMap Str MqttConnection
  tcpConnCount : ℤ
  wsConnCount : ℤ
  /-- the listener of each endpoint -/
  listeners : PlainMap ℕ Listener

namespace Node

def getConnCount (n : Node) : Listener → ℤ
  | .tcp => n.tcpConnCount
  | .wsp => n.wsConnCount

def limited (n : Node) (listener : Listener) : Bool :=
  decide (n.getConnCount listener ≥ n.connMaxLimit listener)

def incrementAndGetConnCount (n : Node) : Listener → Node
  | .tcp => { n with tcpConnCount := n.tcpConnCount + 1 }
  | .wsp => { n with wsConnCount := n.wsConnCount + 1 }

def decrementAndGetConnCount (n : Node) : Listener → Node
  | .tcp => { n with tcpConnCount := n.tcpConnCount - 1 }
  | .wsp => { n with wsConnCount := n.wsConnCount - 1 }

def containConnection (n : Node) (clientId : Str) : Bool :=
  if !IdUtil.validateClientId clientId then false else n.connectionCache.containsKey clientId

/-- `saveConnection` of the endpoint `id`. -/
def saveConnection (n : Node) (listener : Listener) (connect : Connect) (id : ℕ) : Node :=
  let clientId := connect.clientIdentifier
  let n := if !n.containConnection clientId then n.incrementAndGetConnCount listener else n
  if !IdUtil.validateClientId clientId then n
  else { n with connectionCache :=
      n.connectionCache.put clientId ⟨clientId, connect.isCleanSession, id, listener⟩ }

/-- `deleteConnection` of the endpoint `id`. -/
def deleteConnection (n : Node) (listener : Listener) (clientId : Str) (id : ℕ) : Node :=
  match n.broker.getWrapper clientId with
  | none => n
  | some wrapper =>
      if wrapper.isSameEndpoint id then
        let connectionCache := if !IdUtil.validateClientId clientId then n.connectionCache
          else n.connectionCache.remove clientId
        { n with connectionCache }.decrementAndGetConnCount listener
      else n

/-- `handleAccept`.  The broker runs `openSession` and the `accept` that comes last, and numbers
the endpoint. -/
def handleAccept (n : Node) (listener : Listener) (connect : Connect) : Node :=
  let id := n.broker.endpoints.length
  { n with
    broker := (n.broker.handleAccept connect.clientIdentifier connect.isCleanSession).2
    listeners := n.listeners.put id listener }.saveConnection listener connect id

/-- `handleClose` of the endpoint `id`, which is closed. -/
def handleClose (n : Node) (listener : Listener) (clientId : Str) (id : ℕ) : Node :=
  let n := n.deleteConnection listener clientId id
  { n with broker := n.broker.closeSession id }

end Node

inductive Op where
  /-- a CONNECT, and what the authentication says in case it is asked -/
  | connect (listener : Listener) (connect : Connect) (res : Bool)
  /-- the connection ends -/
  | close (id : ℕ)

namespace Node

/-- `handleEndpoint` lets the CONNECT through to `handleAccept`. -/
def Admits (n : Node) (listener : Listener) (connect : Connect) (res : Bool) : Prop :=
  n.config.handleEndpoint (n.limited listener) connect = .accept ∨
    n.config.handleEndpoint (n.limited listener) connect = .ask ∧ handleAuth res = .accept

instance (n : Node) (listener : Listener) (connect : Connect) (res : Bool) :
    Decidable (n.Admits listener connect res) := inferInstanceAs (Decidable (_ ∨ _))

/-- A rejected CONNECT leaves no endpoint; only an endpoint of the listener can end. -/
def step (n : Node) : Op → Option Node
  | .connect listener connect res =>
      some (if n.Admits listener connect res then n.handleAccept listener connect else n)
  | .close id =>
      match n.broker.endpoint id, n.listeners.get id with
      | some endpoint, some listener =>
          some ({ n with broker := n.broker.disconnect id }.handleClose listener
            endpoint.clientIdentifier id)
      | _, _ => none

/-- A node after its start: `StdCacheServiceImpl` clears the connection cache. -/
def started (config : ConnectConfig) (connMaxLimit : Listener → ℤ) (b : Broker) : Node :=
  ⟨config, connMaxLimit, b, ∅, 0, 0, ∅⟩

/-- How many records are those of a listener. -/
def records (n : Node) (listener : Listener) : ℕ :=
  n.connectionCache.count fun _ conn => decide (conn.listener = listener)

/-- The counters are exact. -/
def Exact (n : Node) : Prop := ∀ listener, n.getConnCount listener = n.records listener

/-- The connection `id` does not hold a slot. -/
def Free (n : Node) (id : ℕ) : Prop :=
  ∀ clientId conn, n.connectionCache.get clientId = some conn → conn.remote ≠ id

/-- A CONNECT is let through while the client has a record of the other listener. -/
def Crosses (n : Node) : Op → Prop
  | .connect listener connect res => n.Admits listener connect res ∧
      ∃ conn, n.connectionCache.get connect.clientIdentifier = some conn ∧
        conn.listener ≠ listener
  | .close _ => False

instance (n : Node) : ∀ op, Decidable (n.Crosses op)
  | .connect listener connect res =>
      decidable_of_iff (n.Admits listener connect res ∧
        ((n.connectionCache.get connect.clientIdentifier).any fun conn =>
          decide (conn.listener ≠ listener)) = true) (by simp [Crosses, Option.any_eq_true])
  | .close _ => inferInstanceAs (Decidable False)

variable {n n' : Node} {listener : Listener} {connect : Connect} {id : ℕ}

/-! ### Counting -/

@[simp] lemma getConnCount_increment (l : Listener) :
    (n.incrementAndGetConnCount listener).getConnCount l =
      n.getConnCount l + if listener = l then 1 else 0 := by
  cases listener <;> cases l <;> simp [incrementAndGetConnCount, getConnCount]

@[simp] lemma getConnCount_decrement (l : Listener) :
    (n.decrementAndGetConnCount listener).getConnCount l =
      n.getConnCount l - if listener = l then 1 else 0 := by
  cases listener <;> cases l <;> simp [decrementAndGetConnCount, getConnCount]

@[simp] lemma broker_increment : (n.incrementAndGetConnCount listener).broker = n.broker := by
  cases listener <;> rfl

@[simp] lemma broker_decrement : (n.decrementAndGetConnCount listener).broker = n.broker := by
  cases listener <;> rfl

@[simp] lemma connectionCache_increment :
    (n.incrementAndGetConnCount listener).connectionCache = n.connectionCache := by
  cases listener <;> rfl

@[simp] lemma connectionCache_decrement :
    (n.decrementAndGetConnCount listener).connectionCache = n.connectionCache := by
  cases listener <;> rfl

@[simp] lemma listeners_increment :
    (n.incrementAndGetConnCount listener).listeners = n.listeners := by
  cases listener <;> rfl

@[simp] lemma listeners_decrement :
    (n.decrementAndGetConnCount listener).listeners = n.listeners := by
  cases listener <;> rfl

@[simp] lemma connMaxLimit_increment :
    (n.incrementAndGetConnCount listener).connMaxLimit = n.connMaxLimit := by
  cases listener <;> rfl

@[simp] lemma connMaxLimit_decrement :
    (n.decrementAndGetConnCount listener).connMaxLimit = n.connMaxLimit := by
  cases listener <;> rfl

/-- The records of a client that is taken over are those of its new listener. -/
lemma saveConnection_spec (n : Node) (listener : Listener) (id : ℕ)
    (hv : IdUtil.validateClientId connect.clientIdentifier = true) :
    (n.saveConnection listener connect id).broker = n.broker ∧
      (n.saveConnection listener connect id).listeners = n.listeners ∧
      (n.saveConnection listener connect id).connectionCache =
        n.connectionCache.put connect.clientIdentifier
          ⟨connect.clientIdentifier, connect.isCleanSession, id, listener⟩ ∧
      ∀ l, (n.saveConnection listener connect id).getConnCount l = n.getConnCount l +
        if n.connectionCache.get connect.clientIdentifier = none ∧ listener = l then 1 else 0 := by
  have hcontain : n.containConnection connect.clientIdentifier =
      n.connectionCache.containsKey connect.clientIdentifier := if_neg (by simp [hv])
  simp only [saveConnection, hcontain, hv, Bool.not_true, Bool.false_eq_true, if_false]
  cases hget : n.connectionCache.get connect.clientIdentifier with
  | none =>
      have hkey : n.connectionCache.containsKey connect.clientIdentifier = false := by
        simp [PlainMap.containsKey, hget]
      simp only [hkey, Bool.not_false, if_true, broker_increment, listeners_increment,
        connectionCache_increment, true_and]
      intro l
      exact getConnCount_increment l
  | some conn =>
      have hkey : n.connectionCache.containsKey connect.clientIdentifier = true := by
        simp [PlainMap.containsKey, hget]
      simp only [hkey, Bool.not_true, Bool.false_eq_true, if_false, true_and, reduceCtorEq,
        false_and, add_zero]
      intro l
      cases l <;> rfl

/-- Saving a connection keeps the counters exact unless it changes the listener of a record. -/
lemma exact_saveConnection (hv : IdUtil.validateClientId connect.clientIdentifier = true)
    (h : n.Exact) : (n.saveConnection listener connect id).Exact ↔
      ¬∃ conn, n.connectionCache.get connect.clientIdentifier = some conn ∧
        conn.listener ≠ listener := by
  obtain ⟨-, -, hcache, hcount⟩ := saveConnection_spec n listener id hv
  simp only [Exact, records] at h ⊢
  simp only [hcount, hcache, h, PlainMap.count_put, decide_eq_true_eq]
  cases hget : n.connectionCache.get connect.clientIdentifier with
  | none =>
      refine iff_of_true (fun l => ?_) (by simp)
      rw [PlainMap.remove_of_get_none hget]
      simp
  | some conn =>
      simp only [PlainMap.count_of_get _ hget, reduceCtorEq, false_and, if_false, add_zero,
        decide_eq_true_eq, Nat.cast_inj, Option.some.injEq, exists_eq_left', not_not]
      constructor
      · intro hall
        by_contra hne
        have hl := hall listener
        rw [if_neg hne, if_pos rfl] at hl
        omega
      · rintro rfl l
        rfl

/-! ### The invariant -/

/-- A client has a record iff it has a registered wrapper, and then the record is that of the
connection of the wrapper. -/
structure Inv (n : Node) : Prop where
  broker : n.broker.Inv
  recorded : ∀ clientId w, n.broker.wrappers.get clientId = some w →
    ∃ conn, n.connectionCache.get clientId = some conn ∧ conn.remote = w.endpoint ∧
      n.listeners.get w.endpoint = some conn.listener
  registered : ∀ clientId conn, n.connectionCache.get clientId = some conn →
    ∃ w, n.broker.wrappers.get clientId = some w

lemma valid_of_admits {res : Bool} (h : n.Admits listener connect res) :
    IdUtil.validateClientId connect.clientIdentifier = true := by
  by_contra hv
  have hv : IdUtil.validateClientId connect.clientIdentifier = false := by simpa using hv
  simp only [Admits, ConnectConfig.handleEndpoint, hv] at h
  cases hlim : n.limited listener <;> simp [hlim] at h

/-- The endpoint of a registered wrapper is one of the endpoints there are. -/
lemma Inv.endpoint_lt (h : n.Inv) {clientId : Str} {w : Wrapper}
    (hw : n.broker.wrappers.get clientId = some w) : w.endpoint < n.broker.endpoints.length := by
  by_contra hle
  have howner := ((h.broker.own clientId).live w hw).owner
  rw [Broker.owner_of_le (Nat.le_of_not_lt hle)] at howner
  exact absurd howner (by simp)

lemma Inv.handleAccept (h : n.Inv) (hv : IdUtil.validateClientId connect.clientIdentifier = true) :
    (n.handleAccept listener connect).Inv := by
  obtain ⟨hb, hl, hc, -⟩ := saveConnection_spec
    { n with
      broker := (n.broker.handleAccept connect.clientIdentifier connect.isCleanSession).2
      listeners := n.listeners.put n.broker.endpoints.length listener }
    listener n.broker.endpoints.length hv
  have hconn := h.broker.connect hv connect.isCleanSession
  obtain ⟨w, hw, -, hend, -⟩ := hconn.live
  refine ⟨?_, fun c w' hw' => ?_, fun c conn hget => ?_⟩
  · rw [Node.handleAccept, hb]
    exact h.broker.handleAccept hv connect.isCleanSession
  · rw [Node.handleAccept, hb] at hw'
    rw [Node.handleAccept, hc, hl, PlainMap.get_put]
    by_cases hne : c = connect.clientIdentifier
    · rw [hne] at hw'
      obtain rfl := Option.some.inj (hw.symm.trans hw')
      refine ⟨_, if_pos hne, hend.symm, ?_⟩
      rw [hend]
      exact PlainMap.get_put_self _ _ _
    · have hold : n.broker.wrappers.get c = some w' :=
        (hconn.sameElse.wrappers c hne).symm.trans hw'
      obtain ⟨conn, hget, hremote, hlistener⟩ := h.recorded c w' hold
      refine ⟨conn, (if_neg hne).trans hget, hremote, ?_⟩
      rw [PlainMap.get_put_of_ne _ (Nat.ne_of_lt (h.endpoint_lt hold))]
      exact hlistener
  · rw [Node.handleAccept, hc, PlainMap.get_put] at hget
    rw [Node.handleAccept, hb]
    by_cases hne : c = connect.clientIdentifier
    · rw [hne]
      exact ⟨w, hw⟩
    · rw [if_neg hne] at hget
      obtain ⟨w', hold⟩ := h.registered c conn hget
      exact ⟨w', (hconn.sameElse.wrappers c hne).trans hold⟩

/-- The end of a connection: it takes its record with it, or has none any more. -/
lemma step_close (hstep : n.step (.close id) = some n') :
    ∃ endpoint listener, n.broker.endpoint id = some endpoint ∧
      n.listeners.get id = some listener ∧ n'.broker = n.broker.step (.close id) ∧
      n'.listeners = n.listeners ∧
      ((∃ w, n.broker.getWrapper endpoint.clientIdentifier = some w ∧ w.endpoint = id ∧
          n'.connectionCache = n.connectionCache.remove endpoint.clientIdentifier ∧
          ∀ l, n'.getConnCount l = n.getConnCount l - if listener = l then 1 else 0) ∨
        (∀ w, n.broker.getWrapper endpoint.clientIdentifier = some w → w.endpoint ≠ id) ∧
          n'.connectionCache = n.connectionCache ∧ ∀ l, n'.getConnCount l = n.getConnCount l) := by
  simp only [step] at hstep
  cases hend : n.broker.endpoint id with
  | none =>
      rw [hend] at hstep
      cases hstep
  | some endpoint =>
      cases hl : n.listeners.get id with
      | none =>
          rw [hend, hl] at hstep
          cases hstep
      | some listener =>
          rw [hend, hl] at hstep
          obtain rfl := Option.some.inj hstep
          have hwrapper : (n.broker.disconnect id).getWrapper endpoint.clientIdentifier =
              n.broker.getWrapper endpoint.clientIdentifier := by
            simp only [Broker.getWrapper, Broker.disconnect_wrappers]
          refine ⟨endpoint, listener, rfl, rfl, ?_⟩
          simp only [handleClose, deleteConnection, hwrapper]
          cases hget : n.broker.getWrapper endpoint.clientIdentifier with
          | none =>
              refine ⟨rfl, rfl, Or.inr ⟨fun w hw => ?_, rfl, fun l => ?_⟩⟩
              · cases hw
              · cases l <;> rfl
          | some w =>
              have hv := Broker.valid_of_getWrapper hget
              by_cases hid : w.endpoint = id
              · simp only [Wrapper.isSameEndpoint, hid, decide_true, if_true, hv, Bool.not_true,
                  Bool.false_eq_true, if_false, broker_decrement, listeners_decrement,
                  connectionCache_decrement]
                refine ⟨rfl, trivial, Or.inl ⟨w, rfl, hid, trivial, fun l => ?_⟩⟩
                exact getConnCount_decrement l
              · simp only [Wrapper.isSameEndpoint, hid, decide_false, Bool.false_eq_true, if_false]
                refine ⟨rfl, trivial, Or.inr ⟨fun w' hw' => ?_, trivial, fun l => ?_⟩⟩
                · obtain rfl := Option.some.inj hw'
                  exact hid
                · cases l <;> rfl

/-- A connection that ends takes its own record or none. -/
lemma Inv.close (h : n.Inv) (hstep : n.step (.close id) = some n') : n'.Inv := by
  obtain ⟨endpoint, listener, hend, -, hb, hl, hcases⟩ := step_close hstep
  rcases hcases with ⟨w, hget, rfl, hcache, -⟩ | ⟨hnot, hcache, -⟩
  · have hv := Broker.valid_of_getWrapper hget
    obtain ⟨hsame, hnone, -⟩ := h.broker.close_current hget
    rw [Broker.getWrapper_eq hv, ← hb] at hnone
    rw [← hb] at hsame
    refine ⟨?_, fun c w' hw' => ?_, fun c conn hconn => ?_⟩
    · rw [hb]
      exact h.broker.step _
    · have hne : c ≠ endpoint.clientIdentifier := by
        rintro rfl
        exact absurd (hnone.symm.trans hw') (by simp)
      rw [hsame.wrappers c hne] at hw'
      rw [hcache, hl, PlainMap.get_remove_of_ne _ hne]
      exact h.recorded c w' hw'
    · rw [hcache, PlainMap.get_remove] at hconn
      split_ifs at hconn with hne
      rw [hsame.wrappers c hne]
      exact h.registered c conn hconn
  · obtain ⟨-, hwrappers⟩ := Broker.close_superseded hend hnot
    rw [← hb] at hwrappers
    refine ⟨?_, ?_, ?_⟩
    · rw [hb]
      exact h.broker.step _
    · rw [hwrappers, hcache, hl]
      exact h.recorded
    · rw [hwrappers, hcache]
      exact h.registered

lemma Inv.step (h : n.Inv) {op : Op} (hstep : n.step op = some n') : n'.Inv := by
  cases op with
  | connect listener connect res =>
      obtain rfl := Option.some.inj hstep
      split_ifs with hadmits
      · exact h.handleAccept (valid_of_admits hadmits)
      · exact h
  | close id => exact h.close hstep

/-- From exact counters, a step leads to exact counters unless it crosses over. -/
lemma Inv.exact_step (h : n.Inv) (hexact : n.Exact) {op : Op} (hstep : n.step op = some n') :
    n'.Exact ↔ ¬n.Crosses op := by
  cases op with
  | connect listener connect res =>
      obtain rfl := Option.some.inj hstep
      split_ifs with hadmits
      · have hv := valid_of_admits hadmits
        simp only [Crosses, hadmits, true_and]
        exact exact_saveConnection hv fun l => by
          have hl := hexact l
          cases l <;> exact hl
      · simp [Crosses, hadmits, hexact]
  | close id =>
      refine iff_of_true (fun l => ?_) not_false
      obtain ⟨endpoint, listener, -, hlistener, -, -, hcases⟩ := step_close hstep
      have hl := hexact l
      rcases hcases with ⟨w, hget, rfl, hcache, hcount⟩ | ⟨-, hcache, hcount⟩
      · -- the record is that of the connection, so it has the listener whose counter is lowered
        rw [Broker.getWrapper_eq (Broker.valid_of_getWrapper hget)] at hget
        obtain ⟨conn, hconn, -, hconn'⟩ := h.recorded _ w hget
        obtain rfl := Option.some.inj (hlistener.symm.trans hconn')
        rw [records, PlainMap.count_of_get _ hconn] at hl
        rw [hcount, hl, records, hcache]
        simp
      · rw [hcount, hl, records, records, hcache]

/-! ### Slots -/

/-- The connection has ended, and its slot is free. -/
structure Gone (n : Node) (id : ℕ) : Prop where
  owner : n.broker.owner id ≠ none
  free : n.Free id

lemma Inv.free_close (h : n.Inv) (hstep : n.step (.close id) = some n') : n'.Free id := by
  obtain ⟨endpoint, listener, hend, -, -, -, hcases⟩ := step_close hstep
  intro c conn hconn hremote
  have hclient : ∀ conn, n.connectionCache.get c = some conn → conn.remote = id →
      ∃ w, n.broker.getWrapper endpoint.clientIdentifier = some w ∧ w.endpoint = id ∧
        c = endpoint.clientIdentifier := by
    intro conn hconn hremote
    obtain ⟨w, hw⟩ := h.registered c conn hconn
    obtain ⟨conn', hconn', hremote', -⟩ := h.recorded c w hw
    obtain rfl := Option.some.inj (hconn.symm.trans hconn')
    have hid : w.endpoint = id := hremote'.symm.trans hremote
    have hl := (h.broker.own c).live w hw
    have howner := hl.owner
    rw [Broker.owner, hid, hend, Option.map_some] at howner
    have hc : endpoint.clientIdentifier = c := congrArg Prod.fst (Option.some.inj howner)
    exact ⟨w, by rw [hc, Broker.getWrapper_eq hl.valid]; exact hw, hid, hc.symm⟩
  rcases hcases with ⟨w, hget, hid, hcache, -⟩ | ⟨hnot, hcache, -⟩
  · rw [hcache] at hconn
    obtain ⟨-, -, -, rfl⟩ := hclient conn (PlainMap.get_of_get_remove _ hconn) hremote
    exact absurd ((PlainMap.get_remove_self _ _).symm.trans hconn) (by simp)
  · rw [hcache] at hconn
    obtain ⟨w, hw, hid, -⟩ := hclient conn hconn hremote
    exact hnot w hw hid

lemma Gone.step (hg : n.Gone id) (h : n.Inv) {op : Op} (hstep : n.step op = some n') :
    n'.Gone id := by
  cases op with
  | connect listener connect res =>
      obtain rfl := Option.some.inj hstep
      split_ifs with hadmits
      · have hv := valid_of_admits hadmits
        obtain ⟨hb, -, hc, -⟩ := saveConnection_spec
          { n with
            broker := (n.broker.handleAccept connect.clientIdentifier connect.isCleanSession).2
            listeners := n.listeners.put n.broker.endpoints.length listener }
          listener n.broker.endpoints.length hv
        have hlt : id < n.broker.endpoints.length := by
          by_contra hle
          exact hg.owner (Broker.owner_of_le (Nat.le_of_not_lt hle))
        have hconn := h.broker.connect hv connect.isCleanSession
        refine ⟨?_, fun c conn hget => ?_⟩
        · rw [Node.handleAccept, hb, hconn.sameElse.owner, Broker.owner_addEndpoint,
            if_neg (Nat.ne_of_lt hlt)]
          exact hg.owner
        · rw [Node.handleAccept, hc] at hget
          rcases PlainMap.eq_or_get_of_get_put _ hget with ⟨-, rfl⟩ | hold
          · exact Nat.ne_of_gt hlt
          · exact hg.free c conn hold
      · exact hg
  | close id' =>
      obtain ⟨endpoint, listener, -, -, hb, -, hcases⟩ := step_close hstep
      refine ⟨?_, fun c conn hget => ?_⟩
      · rw [hb, Broker.owner_close]
        exact hg.owner
      · rcases hcases with ⟨w, -, -, hcache, -⟩ | ⟨-, hcache, -⟩
        · rw [hcache] at hget
          exact hg.free c conn (PlainMap.get_of_get_remove _ hget)
        · rw [hcache] at hget
          exact hg.free c conn hget

/-! ### Runs -/

lemma inv_run {ops : List Op} (h : n.Inv) (hrun : run step n ops = some n') : n'.Inv :=
  invariant_run (fun _ _ _ _ hI _ hs => Inv.step hI hs) h (allSteps_true _ _) hrun

lemma gone_run {ops : List Op} (h : n.Inv) (hg : n.Gone id) (hrun : run step n ops = some n') :
    n'.Gone id := by
  have hboth : n'.Inv ∧ n'.Gone id :=
    invariant_run (I := fun n => n.Inv ∧ n.Gone id)
      (fun _ _ _ _ hI _ hs => ⟨hI.1.step hs, hI.2.step hI.1 hs⟩) ⟨h, hg⟩ (allSteps_true _ _) hrun
  exact hboth.2

/-- The slot of a connection that has ended is free from then on. -/
lemma free_run {ops : List Op} (h : n.Inv) (hrun : run step n ops = some n')
    (hmem : Op.close id ∈ ops) : n'.Free id := by
  obtain ⟨before, after, rfl⟩ := append_of_mem hmem
  rw [run_append, Option.bind_eq_some_iff] at hrun
  obtain ⟨n₁, hrun₁, hrun⟩ := hrun
  rw [run_cons, Option.bind_eq_some_iff] at hrun
  obtain ⟨n₂, hstep, hrun⟩ := hrun
  have h₁ := inv_run h hrun₁
  obtain ⟨endpoint, listener, hend, -, hb, -⟩ := step_close hstep
  refine (gone_run (h₁.step hstep) ⟨?_, h₁.free_close hstep⟩ hrun).free
  rw [hb, Broker.owner_close, Broker.owner, hend]
  exact Option.some_ne_none _

variable {b : Broker}

lemma inv_started (config : ConnectConfig) (connMaxLimit : Listener → ℤ) (hb : b.Restarted) :
    (started config connMaxLimit b).Inv := by
  refine ⟨hb.inv, fun c w hw => ?_, fun c conn hconn => ?_⟩
  · have hnone : b.wrappers.get c = some w := hw
    simp [hb.wrappers] at hnone
  · exact absurd ((PlainMap.get_empty c).symm.trans hconn) (by simp)

end Node

/-! ### Results -/

/-- **The connection counters.**  All along a run the counters are the numbers of the records of
the listeners, and each connection that ended has given back its slot, iff no CONNECT is let
through on one listener while the client has a record of the other one. -/
theorem exact_iff (config : ConnectConfig) (connMaxLimit : Listener → ℤ) (b : Broker)
    (hb : b.Restarted) (ops : List Op) (n : Node)
    (hrun : run Node.step (.started config connMaxLimit b) ops = some n) :
    (∀ pre n', pre <+: ops → run Node.step (.started config connMaxLimit b) pre = some n' →
        n'.Exact ∧ ∀ id, Op.close id ∈ pre → n'.Free id) ↔
      AllSteps Node.step (fun n op => ¬n.Crosses op) (.started config connMaxLimit b) ops := by
  have hinv := Node.inv_started config connMaxLimit hb
  have hexact : (Node.started config connMaxLimit b).Exact := fun l => by cases l <;> rfl
  rw [← always_iff_allSteps (fun _ _ _ h hs => Node.Inv.step h hs)
    (fun _ _ _ h hG hs => h.exact_step hG hs) hinv hexact hrun]
  constructor
  · intro h pre n' hpre hrun'
    exact (h pre n' hpre hrun').1
  · intro h pre n' hpre hrun'
    exact ⟨h pre n' hpre hrun', fun id hmem => Node.free_run hinv hrun' hmem⟩

/-- A node with nothing stored, whose listeners take two connections each. -/
def sampleNode : Node :=
  .started ⟨128, true, false⟩ (fun _ => 2) (Broker.initial sampleConfig 1)

/-- A client connects over TCP, is taken over there, and another one connects over WebSocket; then
all three connections end. -/
def steadyOps : List Op :=
  [.connect .tcp ⟨['c'], true, none⟩ true, .connect .tcp ⟨['c'], false, none⟩ true,
    .connect .wsp ⟨['d'], true, none⟩ true, .close 0, .close 2, .close 1]

theorem exact_iff_steady :
    (∀ pre n', pre <+: steadyOps → run Node.step sampleNode pre = some n' →
        n'.Exact ∧ ∀ id, Op.close id ∈ pre → n'.Free id) ↔
      AllSteps Node.step (fun n op => ¬n.Crosses op) sampleNode steadyOps :=
  exact_iff ⟨128, true, false⟩ (fun _ => 2) (Broker.initial sampleConfig 1)
    (Broker.restarted_initial sampleConfig 1) steadyOps _ (Option.some_get (by decide)).symm

/-- A client connects over TCP and then over WebSocket, and both connections end. -/
def crossingOps : List Op :=
  [.connect .tcp ⟨['c'], true, none⟩ true, .connect .wsp ⟨['c'], true, none⟩ true, .close 0,
    .close 1]

/-- The TCP listener keeps a slot for good, and the counter of the other one is negative. -/
theorem not_exact :
    (run Node.step sampleNode crossingOps).map (fun n => (n.getConnCount .tcp, n.records .tcp)) =
        some (1, 0) ∧
      (run Node.step sampleNode crossingOps).map (fun n => (n.getConnCount .wsp, n.records .wsp)) =
        some (-1, 0) ∧
      ¬∀ n, run Node.step sampleNode crossingOps = some n → n.Exact := by
  have htcp : (run Node.step sampleNode crossingOps).map
      (fun n => (n.getConnCount .tcp, n.records .tcp)) = some (1, 0) := by decide
  refine ⟨htcp, by decide, fun hall => ?_⟩
  obtain ⟨n, hrun, hn⟩ := Option.map_eq_some_iff.1 htcp
  have hexact := hall n hrun .tcp
  simp only [Prod.mk.injEq] at hn
  rw [hn.1, hn.2] at hexact
  exact absurd hexact (by decide)

end Connections

end Stuart
