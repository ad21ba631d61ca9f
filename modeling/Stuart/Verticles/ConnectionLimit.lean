/-
The connection limit of one listener.

`handleEndpoint` compares the connection counter with the limit when a CONNECT comes in.  The
counter is raised only later, in the task that `handleAccept` starts, and that task starts after
the answer of the authentication service.  So the limit holds as long as every CONNECT that gets
past the check finds room beside the connections that are counted and those that are on their way
from the check to the counter.

The clients have different ids.  The sections under the lock of a client, and `openSession` and
`closeSession`, then concern nobody else and are one step each.
-/
import Stuart.Lib.Pool
import Stuart.Verticles.Connections

namespace Stuart

open List Lib

namespace ConnectionLimit

open Connections

/-- How far `handleEndpoint` and `handleAccept` have come with a connection. -/
inductive Stage where
  /-- the authentication service is asked -/
  | asked
  /-- the task of `handleAccept` is next at `openSession` -/
  | opening
  /-- next at `saveConnection` -/
  | saving
  /-- next to set the handlers of the endpoint -/
  | installing
  /-- the task is done, and its result handler is next -/
  | finishing
  | accepted
  | rejected
deriving DecidableEq

/-- What has become of the network connection. -/
inductive Ending where
  | connected
  /-- it ended while there was no close handler, or was rejected -/
  | lost
  /-- the task of `handleClose` is next at `deleteConnection` -/
  | deleting
  /-- next at `closeSession` -/
  | closing
  | closed
deriving DecidableEq

structure Connection where
  connect : Connect
  stage : Stage
  ending : Ending

namespace Connection

def clientIdentifier (c : Connection) : Str := c.connect.clientIdentifier

/-- The handler that the authentication service calls. -/
def answer (c : Connection) (res : Bool) : Option Connection :=
  match c.stage with
  | .asked =>
      some (if handleAuth res = .accept then { c with stage := .opening }
        else { c with stage := .rejected, ending := .lost })
  | _ => none

/-- The next step of the task of `handleAccept`, or its result handler. -/
def accept (listener : Listener) (n : Node) (c : Connection) (id : ℕ) :
    Option (Node × Connection) :=
  match c.stage with
  | .opening =>
      some ({ n with
          broker := n.broker.openSession c.clientIdentifier id c.connect.isCleanSession },
        { c with stage := .saving })
  | .saving => some (n.saveConnection listener c.connect id, { c with stage := .installing })
  | .installing => some (n, { c with stage := .finishing })
  | .finishing => some ({ n with broker := n.broker.accept id }, { c with stage := .accepted })
  | _ => none

/-- The network connection ends; the close handler is there once the task has set it. -/
def disconnect (n : Node) (c : Connection) (id : ℕ) : Option (Node × Connection) :=
  match c.ending with
  | .connected =>
      some ({ n with broker := n.broker.disconnect id },
        { c with ending :=
            if c.stage = .finishing ∨ c.stage = .accepted then .deleting else .lost })
  | _ => none

/-- The next step of the task of `handleClose`. -/
def close (listener : Listener) (n : Node) (c : Connection) (id : ℕ) : Option (Node × Connection) :=
  match c.ending with
  | .deleting =>
      some (n.deleteConnection listener c.clientIdentifier id, { c with ending := .closing })
  | .closing =>
      some ({ n with broker := n.broker.closeSession id }, { c with ending := .closed })
  | _ => none

/-- The connection is past the check of the limit, and not counted yet. -/
def underWay (c : Connection) : Bool :=
  decide (c.stage = .asked ∨ c.stage = .opening ∨ c.stage = .saving)

def isSaved (c : Connection) : Bool :=
  decide (c.stage = .installing ∨ c.stage = .finishing ∨ c.stage = .accepted)

/-- `saveConnection` is done, and `deleteConnection` is not. -/
def isCounted (c : Connection) : Bool :=
  c.isSaved && decide (c.ending = .connected ∨ c.ending = .lost ∨ c.ending = .deleting)

/-- `handleClose` starts from the close handler, which is set after `saveConnection`. -/
def EndsLate (c : Connection) : Prop := c.ending = .deleting → c.isSaved = true

/-- The connection was accepted and is not closed. -/
def isActive (c : Connection) : Bool := decide (c.stage = .accepted ∧ c.ending = .connected)

end Connection

inductive Action where
  /-- a CONNECT comes in, and `handleEndpoint` checks it -/
  | arrive (connect : Connect)
  | answer (id : ℕ) (res : Bool)
  | accept (id : ℕ)
  | disconnect (id : ℕ)
  | close (id : ℕ)

structure State where
  node : Node
  /-- by the numbers of the endpoints -/
  connections : List Connection

namespace State

/-- One of the connections, and the node with it, goes on. -/
def advance (s : State) (id : ℕ) (f : Node → Connection → Option (Node × Connection)) :
    Option State :=
  s.connections[id]?.bind fun c =>
    (f s.node c).map fun r => ⟨r.1, s.connections.set id r.2⟩

/-- The endpoint of a CONNECT, with what `handleEndpoint` decides. -/
def add (s : State) (listener : Listener) (connect : Connect) (stage : Stage) (ending : Ending) :
    State where
  node := { s.node with
    broker := s.node.broker.addEndpoint connect.clientIdentifier connect.isCleanSession
    listeners := s.node.listeners.put s.connections.length listener }
  connections := s.connections ++ [⟨connect, stage, ending⟩]

def answerOf (s : State) (listener : Listener) (connect : Connect) : Answer :=
  s.node.config.handleEndpoint (s.node.limited listener) connect

def step (listener : Listener) (s : State) : Action → Option State
  | .arrive connect =>
      -- no two connections have the same client id
      if s.connections.any fun c => decide (c.clientIdentifier = connect.clientIdentifier) then none
      else
        match s.answerOf listener connect with
        | .reject _ => some (s.add listener connect .rejected .lost)
        | .ask => some (s.add listener connect .asked .connected)
        | .accept => some (s.add listener connect .opening .connected)
  | .answer id res => s.advance id fun n c => (c.answer res).map fun c' => (n, c')
  | .accept id => s.advance id fun n c => c.accept listener n id
  | .disconnect id => s.advance id fun n c => c.disconnect n id
  | .close id => s.advance id fun n c => c.close listener n id

/-- How many connections are accepted and not closed. -/
def active (s : State) : ℕ := s.connections.countP Connection.isActive

def underWay (s : State) : ℕ := s.connections.countP Connection.underWay

/-- A CONNECT that gets past the check of the limit finds room. -/
def Room (s : State) (listener : Listener) : Action → Prop
  | .arrive connect => (s.answerOf listener connect).IsReject ∨
      s.node.getConnCount listener + s.underWay < s.node.connMaxLimit listener
  | _ => True

instance (listener : Listener) (s : State) : ∀ action, Decidable (s.Room listener action)
  | .arrive _ => inferInstanceAs (Decidable (_ ∨ _))
  | .answer .. | .accept _ | .disconnect _ | .close _ => inferInstanceAs (Decidable True)

end State

variable {listener : Listener} {s s' : State} {n n' : Node} {c c' : Connection} {id : ℕ}

/-! ### What a step does to the counter -/

/-- What a step of one connection may do: it moves between being under way, being counted and
neither, and the counter moves with it. -/
structure Change (listener : Listener) (n : Node) (c : Connection) (n' : Node) (c' : Connection) :
    Prop where
  connect : c'.connect = c.connect
  limit : n'.connMaxLimit = n.connMaxLimit
  saved : c.isSaved = true → c'.isSaved = true
  late : c'.EndsLate
  records : ∀ clientId, n'.connectionCache.get clientId ≠ none →
    n.connectionCache.get clientId ≠ none ∨ c.clientIdentifier = clientId ∧ c'.isSaved = true
  counted : n.getConnCount listener + c'.isCounted.toNat ≤
    n'.getConnCount listener + c.isCounted.toNat
  room : n'.getConnCount listener + c'.underWay.toNat ≤
    n.getConnCount listener + c.underWay.toNat

/-- A step that leaves the records and the counters alone. -/
lemma Change.withBroker (broker : Broker) (hconnect : c'.connect = c.connect)
    (hsaved : c.isSaved = true → c'.isSaved = true) (hlate : c'.EndsLate)
    (hcounted : c'.isCounted = true → c.isCounted = true)
    (hroom : c'.underWay = true → c.underWay = true) :
    Change listener n c { n with broker } c' := by
  have hcount : ({ n with broker } : Node).getConnCount listener = n.getConnCount listener := by
    cases listener <;> rfl
  refine ⟨hconnect, rfl, hsaved, hlate, fun _ h => Or.inl h, ?_, ?_⟩
  · rw [hcount]
    have hle := Bool.toNat_le_toNat hcounted
    omega
  · rw [hcount]
    have hle := Bool.toNat_le_toNat hroom
    omega

lemma change_answer {res : Bool} (hlate : c.EndsLate) (h : c.answer res = some c') :
    Change listener n c n c' := by
  obtain ⟨connect, stage, ending⟩ := c
  cases stage <;> simp only [Connection.answer, reduceCtorEq, Option.some.injEq] at h
  subst h
  simp only [Connection.EndsLate] at hlate
  split_ifs
  · exact Change.withBroker n.broker rfl (fun h => h) hlate (fun h => h) fun _ => rfl
  · refine Change.withBroker n.broker rfl (fun h => ?_) (fun h => ?_) (fun h => ?_) fun _ => rfl
    · exact absurd h Bool.false_ne_true
    · cases h
    · exact absurd h Bool.false_ne_true

lemma change_disconnect (h : c.disconnect n id = some (n', c')) : Change listener n c n' c' := by
  obtain ⟨connect, stage, ending⟩ := c
  cases ending <;>
    simp only [Connection.disconnect, reduceCtorEq, Option.some.injEq, Prod.mk.injEq] at h
  obtain ⟨rfl, rfl⟩ := h
  refine Change.withBroker _ rfl (fun h => h) ?_ ?_ fun h => h
  · cases stage <;> simp [Connection.EndsLate, Connection.isSaved]
  · cases stage <;> simp [Connection.isCounted, Connection.isSaved]

/-- A deletion lowers the counter by at most one, and deletes at most records. -/
lemma deleteConnection_spec (listener : Listener) (n : Node) (clientId : Str) (id : ℕ) :
    (n.deleteConnection listener clientId id).connMaxLimit = n.connMaxLimit ∧
      (∀ c, (n.deleteConnection listener clientId id).connectionCache.get c ≠ none →
        n.connectionCache.get c ≠ none) ∧
      n.getConnCount listener ≤
        (n.deleteConnection listener clientId id).getConnCount listener + 1 ∧
      (n.deleteConnection listener clientId id).getConnCount listener ≤
        n.getConnCount listener := by
  simp only [Node.deleteConnection]
  cases hget : n.broker.getWrapper clientId with
  | none => exact ⟨rfl, fun _ h => h, Int.le_add_one le_rfl, le_rfl⟩
  | some wrapper =>
      have hv := Broker.valid_of_getWrapper hget
      by_cases hid : wrapper.isSameEndpoint id = true
      · simp only [hid, if_true, hv, Bool.not_true, Bool.false_eq_true, if_false,
          Node.connMaxLimit_decrement, Node.connectionCache_decrement, Node.getConnCount_decrement,
          true_and]
        have hcount : ({ n with connectionCache := n.connectionCache.remove clientId } :
            Node).getConnCount listener = n.getConnCount listener := by cases listener <;> rfl
        rw [hcount]
        refine ⟨fun c hc hnone => ?_, by omega, by omega⟩
        rw [PlainMap.get_remove, hnone, ite_self] at hc
        exact hc rfl
      · simp only [hid, Bool.false_eq_true, if_false]
        exact ⟨trivial, fun _ h => h, Int.le_add_one le_rfl, le_rfl⟩

lemma change_close (hlate : c.EndsLate) (h : c.close listener n id = some (n', c')) :
    Change listener n c n' c' := by
  obtain ⟨connect, stage, ending⟩ := c
  cases ending <;>
    simp only [Connection.close, reduceCtorEq, Option.some.injEq, Prod.mk.injEq] at h
  · obtain ⟨rfl, rfl⟩ := h
    obtain ⟨hlimit, hrecords, hlow, hhigh⟩ :=
      deleteConnection_spec listener n connect.clientIdentifier id
    have hcounted : (⟨connect, stage, .deleting⟩ : Connection).isCounted = true := by
      simp [Connection.isCounted, hlate rfl]
    refine ⟨rfl, hlimit, fun h => h, fun h => (by cases h), fun c hc => Or.inl (hrecords c hc),
      ?_, ?_⟩
    · rw [hcounted]
      simpa [Connection.isCounted, Connection.clientIdentifier] using hlow
    · exact Int.add_le_add_right hhigh _
  · obtain ⟨rfl, rfl⟩ := h
    refine Change.withBroker _ rfl (fun h => h) (fun h => (by cases h)) ?_ fun h => h
    simp [Connection.isCounted]

/-- `saveConnection` counts a connection whose client has no record. -/
lemma saveConnection_of_none (listener : Listener) (id : ℕ) {connect : Connect}
    (hnone : n.connectionCache.get connect.clientIdentifier = none) :
    (n.saveConnection listener connect id).connMaxLimit = n.connMaxLimit ∧
      (∀ c, (n.saveConnection listener connect id).connectionCache.get c ≠ none →
        n.connectionCache.get c ≠ none ∨ connect.clientIdentifier = c) ∧
      (n.saveConnection listener connect id).getConnCount listener =
        n.getConnCount listener + 1 := by
  have hcontain : n.containConnection connect.clientIdentifier = false := by
    simp [Node.containConnection, PlainMap.containsKey, hnone]
  simp only [Node.saveConnection, hcontain, Bool.not_false, if_true]
  split_ifs
  · refine ⟨Node.connMaxLimit_increment, fun c hc => Or.inl ?_, ?_⟩
    · rwa [Node.connectionCache_increment] at hc
    · simp
  · refine ⟨Node.connMaxLimit_increment, fun c hc => ?_, ?_⟩
    · simp only [Node.connectionCache_increment, PlainMap.get_put] at hc
      by_cases heq : connect.clientIdentifier = c
      · exact Or.inr heq
      · rw [if_neg (Ne.symm heq)] at hc
        exact Or.inl hc
    · cases listener <;> rfl

lemma change_accept (hlate : c.EndsLate)
    (hnone : c.stage = .saving → n.connectionCache.get c.clientIdentifier = none)
    (h : c.accept listener n id = some (n', c')) : Change listener n c n' c' := by
  obtain ⟨connect, stage, ending⟩ := c
  cases stage <;>
    simp only [Connection.accept, reduceCtorEq, Option.some.injEq, Prod.mk.injEq] at h
  · obtain ⟨rfl, rfl⟩ := h
    exact Change.withBroker _ rfl (fun h => h) hlate (fun h => h) fun h => h
  · obtain ⟨rfl, rfl⟩ := h
    obtain ⟨hlimit, hrecords, hcount⟩ :=
      saveConnection_of_none listener id (hnone rfl)
    refine ⟨rfl, hlimit, fun _ => rfl, fun _ => rfl, fun c hc => ?_, ?_, ?_⟩
    · exact (hrecords c hc).imp_right fun heq => ⟨heq, rfl⟩
    · rw [hcount]
      have hle := Bool.toNat_le (Connection.isCounted ⟨connect, .installing, ending⟩)
      omega
    · rw [hcount]
      simp [Connection.underWay]
  · obtain ⟨rfl, rfl⟩ := h
    exact Change.withBroker n.broker rfl (fun h => h) hlate (fun h => h) fun h => h
  · obtain ⟨rfl, rfl⟩ := h
    exact Change.withBroker _ rfl (fun h => h) hlate (fun h => h) fun h => h

/-! ### The invariant -/

structure Inv (listener : Listener) (connMaxLimit : ℤ) (s : State) : Prop where
  limit : s.node.connMaxLimit listener = connMaxLimit
  distinct : ∀ (i j : ℕ) (c c' : Connection), s.connections[i]? = some c →
    s.connections[j]? = some c' → c.clientIdentifier = c'.clientIdentifier → i = j
  late : ∀ (i : ℕ) (c : Connection), s.connections[i]? = some c → c.EndsLate
  /-- a record belongs to a connection that saved it -/
  records : ∀ clientId, s.node.connectionCache.get clientId ≠ none →
    ∃ (i : ℕ) (c : Connection), s.connections[i]? = some c ∧ c.clientIdentifier = clientId ∧
      c.isSaved = true
  counted : (s.connections.countP Connection.isCounted : ℤ) ≤ s.node.getConnCount listener
  room : s.node.getConnCount listener + s.underWay ≤ connMaxLimit

variable {connMaxLimit : ℤ}

/-- A connection that has not been saved has no record. -/
lemma Inv.record_none (h : Inv listener connMaxLimit s) (hc : s.connections[id]? = some c)
    (hnot : c.isSaved = false) : s.node.connectionCache.get c.clientIdentifier = none := by
  by_contra hsome
  obtain ⟨i, c₁, hi, hclient, hsaved⟩ := h.records _ hsome
  obtain rfl := h.distinct i id c₁ c hi hc hclient
  obtain rfl := Option.some.inj (hi.symm.trans hc)
  rw [hnot] at hsaved
  cases hsaved

lemma Inv.change (h : Inv listener connMaxLimit s) (hc : s.connections[id]? = some c)
    (hchange : Change listener s.node c n' c') :
    Inv listener connMaxLimit ⟨n', s.connections.set id c'⟩ := by
  have hclient : c'.clientIdentifier = c.clientIdentifier :=
    congrArg Connect.clientIdentifier hchange.connect
  -- every connection is one of those before, or the one that went on
  have hget : ∀ (i : ℕ) (c₁ : Connection), (s.connections.set id c')[i]? = some c₁ →
      ∃ c₀ : Connection, s.connections[i]? = some c₀ ∧ c₁.clientIdentifier = c₀.clientIdentifier ∧
        (c₀.EndsLate → c₁.EndsLate) := by
    intro i c₁ hi
    rw [getElem?_set_of_some hc] at hi
    split_ifs at hi with heq
    · obtain rfl := Option.some.inj hi
      exact ⟨c, heq ▸ hc, hclient, fun _ => hchange.late⟩
    · exact ⟨c₁, hi, rfl, fun h => h⟩
  have hcounted := Pool.countP_set_of_some hc Connection.isCounted c'
  have hunderWay := Pool.countP_set_of_some hc Connection.underWay c'
  have hstep := hchange.counted
  have hroom := hchange.room
  refine ⟨?_, fun i j c₁ c₂ hi hj heq => ?_, fun i c₁ hi => ?_, fun clientId hrec => ?_, ?_, ?_⟩
  · rw [hchange.limit]
    exact h.limit
  · obtain ⟨d₁, hd₁, heq₁, -⟩ := hget i c₁ hi
    obtain ⟨d₂, hd₂, heq₂, -⟩ := hget j c₂ hj
    exact h.distinct i j d₁ d₂ hd₁ hd₂ (heq₁.symm.trans (heq.trans heq₂))
  · obtain ⟨d, hd, -, hlate⟩ := hget i c₁ hi
    exact hlate (h.late i d hd)
  · simp only [getElem?_set_of_some hc]
    rcases hchange.records clientId hrec with hold | ⟨heq, hsaved⟩
    · obtain ⟨i, c₁, hi, hclient₁, hsaved⟩ := h.records clientId hold
      by_cases hid : i = id
      · rw [hid] at hi
        obtain rfl := Option.some.inj (hc.symm.trans hi)
        exact ⟨id, c', if_pos rfl, hclient.trans hclient₁, hchange.saved hsaved⟩
      · exact ⟨i, c₁, (if_neg hid).trans hi, hclient₁, hsaved⟩
    · exact ⟨id, c', if_pos rfl, hclient.trans heq, hsaved⟩
  · have hold := h.counted
    dsimp only
    omega
  · have hold := h.room
    simp only [State.underWay] at hold ⊢
    omega

/-- A connection comes in that is under way only if there is room for it. -/
lemma Inv.add (h : Inv listener connMaxLimit s) {connect : Connect} {stage : Stage}
    {ending : Ending}
    (hnew : ∀ c ∈ s.connections, c.clientIdentifier ≠ connect.clientIdentifier)
    (hsaved : (⟨connect, stage, ending⟩ : Connection).isSaved = false)
    (hlate : ending ≠ .deleting)
    (hroom : s.node.getConnCount listener + s.underWay +
      (Connection.underWay ⟨connect, stage, ending⟩).toNat ≤ connMaxLimit) :
    Inv listener connMaxLimit (s.add listener connect stage ending) := by
  have hcount : (s.add listener connect stage ending).node.getConnCount listener =
      s.node.getConnCount listener := by cases listener <;> rfl
  have hcounted : (⟨connect, stage, ending⟩ : Connection).isCounted = false := by
    simp [Connection.isCounted, hsaved]
  refine ⟨h.limit, fun i j c₁ c₂ hi hj heq => ?_, fun i c₁ hi => ?_, fun clientId hrec => ?_,
    ?_, ?_⟩
  · rcases getElem?_concat_eq_some.1 hi with hi | ⟨rfl, rfl⟩
    · rcases getElem?_concat_eq_some.1 hj with hj | ⟨rfl, rfl⟩
      · exact h.distinct i j c₁ c₂ hi hj heq
      · exact absurd heq (hnew c₁ (mem_of_getElem? hi))
    · rcases getElem?_concat_eq_some.1 hj with hj | ⟨rfl, rfl⟩
      · exact absurd heq.symm (hnew c₂ (mem_of_getElem? hj))
      · rfl
  · rcases getElem?_concat_eq_some.1 hi with hi | ⟨-, rfl⟩
    · exact h.late i c₁ hi
    · exact fun heq => absurd heq hlate
  · obtain ⟨i, c₁, hi, hclient, hsaved₁⟩ := h.records clientId hrec
    exact ⟨i, c₁, getElem?_concat_eq_some.2 (Or.inl hi), hclient, hsaved₁⟩
  · have hold := h.counted
    rw [hcount]
    simpa [State.add, countP_append, hcounted] using hold
  · rw [hcount]
    simp only [State.add, State.underWay, countP_append, countP_singleton] at hroom ⊢
    cases hway : Connection.underWay ⟨connect, stage, ending⟩ <;> simp [hway] at hroom ⊢ <;> omega

lemma Inv.arrive (h : Inv listener connMaxLimit s) {connect : Connect}
    (hroom : State.Room s listener (.arrive connect))
    (hstep : s.step listener (.arrive connect) = some s') : Inv listener connMaxLimit s' := by
  simp only [State.step] at hstep
  split_ifs at hstep with hany
  have hnew : ∀ c ∈ s.connections, c.clientIdentifier ≠ connect.clientIdentifier := by
    intro c hc heq
    exact hany (any_eq_true.2 ⟨c, hc, decide_eq_true heq⟩)
  have hold := h.room
  simp only [State.Room, h.limit] at hroom
  cases hanswer : s.answerOf listener connect with
  | reject code =>
      rw [hanswer] at hstep
      obtain rfl := Option.some.inj hstep
      refine h.add hnew rfl (by simp) ?_
      simpa [Connection.underWay] using hold
  | ask =>
      rw [hanswer] at hstep hroom
      obtain rfl := Option.some.inj hstep
      have hlt := hroom.resolve_left not_false
      exact h.add hnew rfl (by simp) hlt
  | accept =>
      rw [hanswer] at hstep hroom
      obtain rfl := Option.some.inj hstep
      have hlt := hroom.resolve_left not_false
      exact h.add hnew rfl (by simp) hlt

lemma Inv.advance (h : Inv listener connMaxLimit s)
    {f : Node → Connection → Option (Node × Connection)}
    (hchange : ∀ c n' c', s.connections[id]? = some c → f s.node c = some (n', c') →
      Change listener s.node c n' c')
    (hstep : s.advance id f = some s') : Inv listener connMaxLimit s' := by
  obtain ⟨c, hc, hstep⟩ := Option.bind_eq_some_iff.1 hstep
  obtain ⟨⟨n', c'⟩, hf, rfl⟩ := Option.map_eq_some_iff.1 hstep
  exact h.change hc (hchange c n' c' hc hf)

lemma Inv.step (h : Inv listener connMaxLimit s) {action : Action}
    (hroom : State.Room s listener action) (hstep : s.step listener action = some s') :
    Inv listener connMaxLimit s' := by
  cases action with
  | arrive connect => exact h.arrive hroom hstep
  | answer id res =>
      simp only [State.step] at hstep
      refine h.advance (fun c n' c' hc hf => ?_) hstep
      obtain ⟨c₁, hc₁, heq⟩ := Option.map_eq_some_iff.1 hf
      obtain ⟨rfl, rfl⟩ := Prod.mk.injEq .. ▸ heq
      exact change_answer (h.late id c hc) hc₁
  | accept id =>
      simp only [State.step] at hstep
      refine h.advance (fun c n' c' hc hf => ?_) hstep
      refine change_accept (h.late id c hc) (fun hsaving => h.record_none hc ?_) hf
      simp [Connection.isSaved, hsaving]
  | disconnect id =>
      simp only [State.step] at hstep
      exact h.advance (fun c n' c' _ hf => change_disconnect hf) hstep
  | close id =>
      simp only [State.step] at hstep
      exact h.advance (fun c n' c' hc hf => change_close (h.late id c hc) hf) hstep

/-- The active connections are among those that are counted. -/
lemma Inv.active_le (h : Inv listener connMaxLimit s) : s.active ≤ connMaxLimit := by
  have hle : s.active ≤ s.connections.countP Connection.isCounted := by
    refine countP_mono_left fun c _ hactive => ?_
    simp only [Connection.isActive, decide_eq_true_eq] at hactive
    simp [Connection.isCounted, Connection.isSaved, hactive]
  have hcounted := h.counted
  have hroom := h.room
  omega

/-! ### Results -/

/-- A node after its start, over what its caches hold. -/
def State.started (config : ConnectConfig) (connMaxLimit : Listener → ℤ)
    (cacheService : CacheService) : State :=
  ⟨.started config connMaxLimit ⟨cacheService, [], ∅⟩, []⟩

lemma inv_started (config : ConnectConfig) {connMaxLimit : Listener → ℤ}
    (cacheService : CacheService) (hpos : 0 ≤ connMaxLimit listener) :
    Inv listener (connMaxLimit listener) (.started config connMaxLimit cacheService) := by
  have hcount :
      (State.started config connMaxLimit cacheService).node.getConnCount listener = 0 := by
    cases listener <;> rfl
  refine ⟨rfl, fun i j c c' hi => ?_, fun i c hi => ?_, fun clientId hrec => ?_, ?_, ?_⟩
  · simp [State.started] at hi
  · simp [State.started] at hi
  · exact absurd (PlainMap.get_empty clientId) hrec
  · rw [hcount]
    exact le_rfl
  · rw [hcount]
    simpa [State.started, State.underWay] using hpos

/-- **The connection limit.**  If each CONNECT that gets past the check of the limit finds room for
itself beside the connections that are counted and those that are under way to the counter, then
at no time are more connections accepted and not closed than the limit allows. -/
theorem limit_run (config : ConnectConfig) (connMaxLimit : Listener → ℤ)
    (cacheService : CacheService) (listener : Listener) (hpos : 0 ≤ connMaxLimit listener)
    (actions : List Action) (s : State)
    (hroom : AllSteps (State.step listener) (fun s action => s.Room listener action)
      (.started config connMaxLimit cacheService) actions)
    (hrun : run (State.step listener) (.started config connMaxLimit cacheService) actions =
      some s) : s.active ≤ connMaxLimit listener :=
  (invariant_run (fun _ _ _ _ hI hP hs => Inv.step hI hP hs) (inv_started config cacheService hpos)
    hroom hrun).active_le

/-- A node with nothing stored, whose listeners take one connection each. -/
def sampleState : State :=
  .started ⟨128, true, false⟩ (fun _ => 1) (Broker.initial sampleConfig 1).cacheService

def connectOf (clientIdentifier : Str) : Connect := ⟨clientIdentifier, true, none⟩

/-- A client connects, another one is rejected, and a third one connects after the first one has
left. -/
def steadyActions : List Action :=
  [.arrive (connectOf ['c']), .accept 0, .accept 0, .accept 0, .accept 0,
    .arrive (connectOf ['d']), .disconnect 0, .close 0, .close 0,
    .arrive (connectOf ['e']), .accept 2, .accept 2, .accept 2, .accept 2]

def steadyState : State :=
  (run (State.step .tcp) sampleState steadyActions).get (by decide)

theorem limit_run_steady : steadyState.active ≤ (1 : ℤ) :=
  limit_run ⟨128, true, false⟩ (fun _ => 1) (Broker.initial sampleConfig 1).cacheService .tcp
    (by decide) steadyActions steadyState (by decide) (Option.some_get (by decide)).symm

/-- Two CONNECTs pass the check before the first one is counted. -/
def crowdedActions : List Action :=
  [.arrive (connectOf ['c']), .arrive (connectOf ['d']), .accept 0, .accept 0, .accept 0,
    .accept 0, .accept 1, .accept 1, .accept 1, .accept 1]

/-- Two connections are active where one is allowed. -/
theorem not_limit_run :
    ¬∀ s, run (State.step .tcp) sampleState crowdedActions = some s → s.active ≤ (1 : ℤ) := by
  intro hall
  have htwo : (run (State.step .tcp) sampleState crowdedActions).map State.active = some 2 := by
    decide
  obtain ⟨s, hrun, hactive⟩ := Option.map_eq_some_iff.1 htwo
  have hle := hall s hrun
  rw [hactive] at hle
  exact absurd hle (by decide)

end ConnectionLimit

end Stuart
