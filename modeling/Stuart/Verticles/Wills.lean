/-
The wills of connections that come and go.

`handleAccept` stores or removes the will of a client id; `handleClose` looks the stored will up,
publishes it, looks again and removes it unless it is to be retained.  Each access to the store is
one step, and the steps of all connections interleave.  DISCONNECT is a step of its own and changes
nothing but the flag of its connection.

`Inv` holds in every run.  Two results stand on it.  If every close finds its own will or none, a
will is published only by the close of its own connection, and once (`owned_run`).  With one
connection of a client at a time, wills are published as they should exactly as long as no
connection with a will sends DISCONNECT before it closes (`willsOfClosed_iff`).
-/
import Stuart.Lib.Runs
import Stuart.Verticles.MqttVerticle

namespace Stuart

open List Lib

namespace Wills

/-- Where `handleClose` of a connection is. -/
inductive Phase where
  | opened
  /-- the connection has ended, and `handleWillPublish` comes next -/
  | closing
  | publishing (will : MqttWillMessage)
  /-- the will was handed to the routing, and `deleteWill` comes next -/
  | published
  /-- `deleteWill` has found a will that is not to be retained -/
  | removing
  | closed
deriving DecidableEq

/-- Past the publication. -/
def Phase.isPast : Phase → Bool
  | .published | .removing | .closed => true
  | _ => false

structure Connection where
  clientId : Str
  will : Option MqttWill
  /-- DISCONNECT was received -/
  disconnected : Bool
  phase : Phase
deriving DecidableEq

inductive Event where
  /-- the close of a connection hands a will to the routing -/
  | published (id : ℕ) (will : MqttWillMessage)
  /-- the close of a connection removes a will -/
  | removed (id : ℕ) (will : MqttWillMessage)
deriving DecidableEq

structure State where
  willCache : WillCache
  connections : List Connection
  log : List Event

inductive Move where
  | disconnect
  | close
  | lookup
  | publish
  | check
  | remove
deriving DecidableEq

inductive Action where
  | accept (clientId : Str) (will : Option MqttWill)
  | move (id : ℕ) (move : Move)

namespace State

def initial : State := ⟨∅, [], []⟩

def setConnection (s : State) (id : ℕ) (conn : Connection) : State :=
  { s with connections := s.connections.set id conn }

def setPhase (s : State) (id : ℕ) (conn : Connection) (phase : Phase) : State :=
  s.setConnection id { conn with phase := phase }

/-- The next phase after the lookup of `handleWillPublish`. -/
def looked : Option MqttWillMessage → Phase
  | none => .closed
  | some will => .publishing will

/-- The next phase after the lookup of `deleteWill`. -/
def checked : Option MqttWillMessage → Phase
  | none => .closed
  | some will => if will.retain then .closed else .removing

/-- A step of the handlers of a connection. -/
def stepConnection (s : State) (id : ℕ) (conn : Connection) : Move → Option State
  | .disconnect =>
      -- `handleDisconnect` records a metric and leaves the stored will
      if conn.phase = .opened then some (s.setConnection id { conn with disconnected := true })
      else none
  | .close => if conn.phase = .opened then some (s.setPhase id conn .closing) else none
  | .lookup =>
      if conn.phase = .closing then
        some (s.setPhase id conn (looked (s.willCache.getWill conn.clientId)))
      else none
  | .publish =>
      match conn.phase with
      | .publishing will =>
          some { s.setPhase id conn .published with log := s.log ++ [.published id will] }
      | _ => none
  | .check =>
      if conn.phase = .published then
        some (s.setPhase id conn (checked (s.willCache.getWill conn.clientId)))
      else none
  | .remove =>
      if conn.phase = .removing then
        some { s.setPhase id conn .closed with
          -- whichever will is stored under the client id by now
          willCache := s.willCache.delete conn.clientId
          log := s.log ++ (s.willCache.getWill conn.clientId).toList.map (.removed id) }
      else none

def step (s : State) : Action → Option State
  | .accept clientId will =>
      -- `handleEndpoint` rejects an empty client id
      if IdUtil.validateClientId clientId then
        some { s with
          willCache := s.willCache.handleWillMessage clientId s.connections.length will
          connections := s.connections ++ [⟨clientId, will, false, .opened⟩] }
      else none
  | .move id move =>
      match s.connections[id]? with
      | none => none
      | some conn => s.stepConnection id conn move

/-- The will is the one that its connection registered: that of its CONNECT, with a payload. -/
def Registered (s : State) (will : MqttWillMessage) : Prop :=
  ∃ conn, s.connections[will.connection]? = some conn ∧ ∃ w, conn.will = some w ∧ w.nonEmpty ∧
    will = MsgUtil.convert2MqttWillMessage w conn.clientId will.connection

/-- Publications by the close of a connection. -/
def publishedBy (id : ℕ) : Event → Bool
  | .published i _ => i == id
  | .removed .. => false

/-- Publications of the will that a connection registered. -/
def publishedOf (id : ℕ) : Event → Bool
  | .published _ will => will.connection == id
  | .removed .. => false

/-! ### What a step can do -/

lemma stepConnection_cases {s s' : State} {id : ℕ} {conn : Connection} {move : Move}
    (hstep : s.stepConnection id conn move = some s') :
    (move = .disconnect ∧ conn.phase = .opened ∧
      s' = s.setConnection id { conn with disconnected := true }) ∨
    (move = .close ∧ conn.phase = .opened ∧ s' = s.setPhase id conn .closing) ∨
    (move = .lookup ∧ conn.phase = .closing ∧
      s' = s.setPhase id conn (looked (s.willCache.getWill conn.clientId))) ∨
    (∃ will, move = .publish ∧ conn.phase = .publishing will ∧
      s' = { s.setPhase id conn .published with log := s.log ++ [.published id will] }) ∨
    (move = .check ∧ conn.phase = .published ∧
      s' = s.setPhase id conn (checked (s.willCache.getWill conn.clientId))) ∨
    move = .remove ∧ conn.phase = .removing ∧
      s' = { s.setPhase id conn .closed with
        willCache := s.willCache.delete conn.clientId
        log := s.log ++ (s.willCache.getWill conn.clientId).toList.map (.removed id) } := by
  cases move with
  | publish =>
      simp only [stepConnection] at hstep
      split at hstep
      · rename_i will hphase
        obtain rfl := Option.some.inj hstep
        exact Or.inr (Or.inr (Or.inr (Or.inl ⟨will, rfl, hphase, rfl⟩)))
      · cases hstep
  | disconnect | close | lookup | check | remove =>
      simp only [stepConnection] at hstep
      split_ifs at hstep with hphase
      obtain rfl := Option.some.inj hstep
      simp [hphase]

lemma step_cases {s s' : State} {a : Action} (hstep : s.step a = some s') :
    (∃ clientId will, a = .accept clientId will ∧ IdUtil.validateClientId clientId = true ∧
      s' = { s with
        willCache := s.willCache.handleWillMessage clientId s.connections.length will
        connections := s.connections ++ [⟨clientId, will, false, .opened⟩] }) ∨
    ∃ id move conn, a = .move id move ∧ s.connections[id]? = some conn ∧
      s.stepConnection id conn move = some s' := by
  cases a with
  | accept clientId will =>
      simp only [State.step] at hstep
      split_ifs at hstep with hv
      exact Or.inl ⟨clientId, will, rfl, hv, (Option.some.inj hstep).symm⟩
  | move id move =>
      simp only [State.step] at hstep
      split at hstep
      · cases hstep
      · rename_i conn hconn
        exact Or.inr ⟨id, move, conn, rfl, hconn, hstep⟩

/-! ### The invariant -/

/-- Every will that is stored, about to be published or published was registered by its
connection; and a close publishes at most one. -/
structure Inv (s : State) : Prop where
  valid : ∀ (id : ℕ) (conn : Connection), s.connections[id]? = some conn →
    IdUtil.validateClientId conn.clientId = true
  stored : ∀ (clientId : Str) (will : MqttWillMessage), s.willCache.get clientId = some will →
    s.Registered will
  holding : ∀ (id : ℕ) (conn : Connection) (will : MqttWillMessage),
    s.connections[id]? = some conn → conn.phase = .publishing will → s.Registered will
  published : ∀ (id : ℕ) (will : MqttWillMessage), .published id will ∈ s.log →
    s.Registered will ∧
      ∃ conn : Connection, s.connections[id]? = some conn ∧ conn.phase.isPast = true
  once : ∀ id : ℕ, s.log.countP (publishedBy id) ≤ 1

lemma inv_initial : initial.Inv := by
  refine ⟨?_, ?_, ?_, ?_, ?_⟩ <;> simp [initial]

variable {s s' : State} {id : ℕ} {conn : Connection}

lemma Registered.mono {will : MqttWillMessage} (h : s.Registered will)
    (hsame : ∀ (i : ℕ) (c : Connection), s.connections[i]? = some c →
      ∃ c' : Connection, s'.connections[i]? = some c' ∧ c'.clientId = c.clientId ∧
        c'.will = c.will) : s'.Registered will := by
  obtain ⟨c, hc, w, hw, hne, heq⟩ := h
  obtain ⟨c', hc', hclient, hwill⟩ := hsame _ c hc
  exact ⟨c', hc', w, hwill.trans hw, hne, by rw [hclient]; exact heq⟩

/-- A connection changes in its phase and its flag only. -/
lemma same_set (hconn : s.connections[id]? = some conn) {d : Connection}
    (hclient : d.clientId = conn.clientId) (hwill : d.will = conn.will) (i : ℕ)
    (c : Connection) (hc : s.connections[i]? = some c) :
    ∃ c', (s.setConnection id d).connections[i]? = some c' ∧ c'.clientId = c.clientId ∧
      c'.will = c.will := by
  rw [setConnection, getElem?_set_of_some hconn]
  by_cases hi : i = id
  · subst hi
    obtain rfl := Option.some.inj (hconn.symm.trans hc)
    exact ⟨d, if_pos rfl, hclient, hwill⟩
  · exact ⟨c, by rw [if_neg hi, hc], rfl, rfl⟩

/-- What a connection is after one of the connections has changed. -/
lemma get_setConnection (hconn : s.connections[id]? = some conn) {d : Connection} {i : ℕ}
    {c : Connection} (hc : (s.setConnection id d).connections[i]? = some c) :
    i = id ∧ c = d ∨ i ≠ id ∧ s.connections[i]? = some c := by
  rw [setConnection, getElem?_set_of_some hconn] at hc
  by_cases hi : i = id
  · rw [if_pos hi] at hc
    exact Or.inl ⟨hi, (Option.some.inj hc).symm⟩
  · rw [if_neg hi] at hc
    exact Or.inr ⟨hi, hc⟩

lemma Inv.setConnection (h : s.Inv) (hconn : s.connections[id]? = some conn) {d : Connection}
    (hclient : d.clientId = conn.clientId) (hwill : d.will = conn.will)
    (hphase : ∀ will, d.phase = .publishing will → s.Registered will)
    (hpast : conn.phase.isPast = true → d.phase.isPast = true) :
    (s.setConnection id d).Inv := by
  have hmono : ∀ will, s.Registered will → (s.setConnection id d).Registered will :=
    fun will hr => hr.mono (same_set hconn hclient hwill)
  refine ⟨fun i c hc => ?_, fun k will hk => hmono will (h.stored k will hk),
    fun i c will hc hp => ?_, fun i will hlog => ?_, h.once⟩
  · rcases get_setConnection hconn hc with ⟨-, rfl⟩ | ⟨-, hc⟩
    · rw [hclient]
      exact h.valid id conn hconn
    · exact h.valid i c hc
  · rcases get_setConnection hconn hc with ⟨-, rfl⟩ | ⟨-, hc⟩
    · exact hmono will (hphase will hp)
    · exact hmono will (h.holding i c will hc hp)
  · obtain ⟨hr, c, hc, hp⟩ := h.published i will hlog
    refine ⟨hmono will hr, ?_⟩
    by_cases hi : i = id
    · subst hi
      obtain rfl := Option.some.inj (hconn.symm.trans hc)
      exact ⟨d, by rw [State.setConnection, getElem?_set_of_some hconn, if_pos rfl], hpast hp⟩
    · exact ⟨c, by rw [State.setConnection, getElem?_set_of_some hconn, if_neg hi, hc], hp⟩

/-- A close that has not got to the publication has published nothing. -/
lemma Inv.publishedBy_eq_zero (h : s.Inv) (hconn : s.connections[id]? = some conn)
    (hpast : conn.phase.isPast = false) : s.log.countP (publishedBy id) = 0 := by
  rw [List.countP_eq_zero]
  intro e he hby
  cases e with
  | removed => simp [publishedBy] at hby
  | published i will =>
      obtain rfl : i = id := by simpa [publishedBy] using hby
      obtain ⟨-, c, hc, hp⟩ := h.published i will he
      obtain rfl := Option.some.inj (hconn.symm.trans hc)
      simp [hpast] at hp

lemma Inv.publish (h : s.Inv) (hconn : s.connections[id]? = some conn) {will : MqttWillMessage}
    (hphase : conn.phase = .publishing will) :
    Inv { s.setPhase id conn .published with log := s.log ++ [.published id will] } := by
  have hset := h.setConnection hconn (d := { conn with phase := .published }) rfl rfl
    (by simp) (fun _ => rfl)
  have hzero := h.publishedBy_eq_zero hconn (by rw [hphase]; rfl)
  have hreg := h.holding id conn will hconn hphase
  refine ⟨hset.valid, hset.stored, hset.holding, fun i w hw => ?_, fun i => ?_⟩
  · rcases mem_append.1 hw with hw | hw
    · exact hset.published i w hw
    · obtain ⟨rfl, rfl⟩ : i = id ∧ w = will := by simpa using hw
      refine ⟨hreg.mono (same_set hconn rfl rfl), { conn with phase := .published }, ?_, rfl⟩
      show (s.connections.set i _)[i]? = _
      rw [getElem?_set_of_some hconn, if_pos rfl]
  -- the one publication of this close, which had published nothing before
  · rw [countP_append, countP_singleton]
    by_cases hi : i = id
    · subst hi
      rw [hzero]
      split_ifs <;> omega
    · rw [if_neg (by simpa [publishedBy] using Ne.symm hi)]
      exact h.once i

lemma Inv.remove (h : s.Inv) (hconn : s.connections[id]? = some conn) :
    Inv { s.setPhase id conn .closed with
      willCache := s.willCache.delete conn.clientId
      log := s.log ++ (s.willCache.getWill conn.clientId).toList.map (.removed id) } := by
  have hset := h.setConnection hconn (d := { conn with phase := .closed }) rfl rfl
    (by simp) (fun _ => rfl)
  refine ⟨hset.valid, fun k will hk => ?_, hset.holding, fun i w hw => ?_, fun i => ?_⟩
  · dsimp only at hk
    rw [WillCache.delete_eq (h.valid id conn hconn)] at hk
    exact hset.stored k will (PlainMap.get_of_get_remove _ hk)
  · refine hset.published i w ?_
    rcases mem_append.1 hw with hw | hw
    · exact hw
    · simp at hw
  · have hnone : (map (Event.removed id) (s.willCache.getWill conn.clientId).toList).countP
        (publishedBy i) = 0 := by
      rw [countP_map]
      exact List.countP_eq_zero.2 (by simp [publishedBy])
    rw [countP_append, hnone, Nat.add_zero]
    exact h.once i

lemma Inv.accept (h : s.Inv) {clientId : Str} (hv : IdUtil.validateClientId clientId = true)
    (will : Option MqttWill) :
    Inv { s with
      willCache := s.willCache.handleWillMessage clientId s.connections.length will
      connections := s.connections ++ [⟨clientId, will, false, .opened⟩] } := by
  set s' : State := { s with
    willCache := s.willCache.handleWillMessage clientId s.connections.length will
    connections := s.connections ++ [⟨clientId, will, false, .opened⟩] } with hs'
  have hget : ∀ (i : ℕ) (c : Connection), s'.connections[i]? = some c ↔
      s.connections[i]? = some c ∨
        i = s.connections.length ∧ c = ⟨clientId, will, false, .opened⟩ := fun i c =>
    getElem?_concat_eq_some
  have hmono : ∀ w, s.Registered w → s'.Registered w := fun w hr =>
    hr.mono fun i c hc => ⟨c, (hget i c).2 (Or.inl hc), rfl, rfl⟩
  refine ⟨fun i c hc => ?_, fun k w hk => ?_, fun i c w hc hp => ?_, fun i w hw => ?_, h.once⟩
  · rcases (hget i c).1 hc with hc | ⟨-, rfl⟩
    · exact h.valid i c hc
    · exact hv
  · rw [hs'] at hk
    rcases WillCache.handleWillMessage_cases (s := s.willCache) hv s.connections.length will with
      ⟨heq, -⟩ | ⟨heq, -⟩ | ⟨w', hw', hne, heq⟩
    · rw [heq] at hk
      exact hmono w (h.stored k w hk)
    · rw [heq] at hk
      exact hmono w (h.stored k w (PlainMap.get_of_get_remove _ hk))
    · rw [heq] at hk
      rcases PlainMap.eq_or_get_of_get_put _ hk with ⟨-, rfl⟩ | hk
      · refine ⟨⟨clientId, will, false, .opened⟩, ?_, w', hw', hne, rfl⟩
        simp [hs', MsgUtil.convert2MqttWillMessage]
      · exact hmono w (h.stored k w hk)
  · rcases (hget i c).1 hc with hc | ⟨-, rfl⟩
    · exact hmono w (h.holding i c w hc hp)
    · exact absurd hp (by simp)
  · obtain ⟨hr, c, hc, hp⟩ := h.published i w hw
    exact ⟨hmono w hr, c, (hget i c).2 (Or.inl hc), hp⟩

/-- Whatever `deleteWill` finds, the close is past the publication. -/
lemma isPast_checked (found : Option MqttWillMessage) : (checked found).isPast = true := by
  cases found with
  | none => rfl
  | some will =>
      unfold checked
      dsimp only
      split_ifs <;> rfl

lemma checked_ne_publishing (found : Option MqttWillMessage) (will : MqttWillMessage) :
    checked found ≠ .publishing will := by
  intro heq
  have hpast := isPast_checked found
  rw [heq] at hpast
  cases hpast

lemma looked_eq_publishing {found : Option MqttWillMessage} {will : MqttWillMessage} :
    looked found = .publishing will ↔ found = some will := by
  cases found <;> simp [looked]

lemma Inv.stepConnection (h : s.Inv) (hconn : s.connections[id]? = some conn) {move : Move}
    (hstep : s.stepConnection id conn move = some s') : s'.Inv := by
  rcases stepConnection_cases hstep with ⟨-, hphase, rfl⟩ | ⟨-, hphase, rfl⟩ | ⟨-, hphase, rfl⟩ |
    ⟨will, -, hphase, rfl⟩ | ⟨-, hphase, rfl⟩ | ⟨-, hphase, rfl⟩
  · exact h.setConnection hconn rfl rfl (by simp [hphase]) fun hp => hp
  · exact h.setConnection hconn rfl rfl (by simp) (by simp [hphase, Phase.isPast])
  · refine h.setConnection hconn rfl rfl (fun will hp => ?_) (by simp [hphase, Phase.isPast])
    rw [WillCache.getWill_eq (h.valid _ conn hconn)] at hp
    exact h.stored _ will (looked_eq_publishing.1 hp)
  · exact h.publish hconn hphase
  · exact h.setConnection hconn rfl rfl (fun will hp => absurd hp (checked_ne_publishing _ will))
      fun _ => isPast_checked _
  · exact h.remove hconn

lemma Inv.step (h : s.Inv) {a : Action} (hstep : s.step a = some s') : s'.Inv := by
  rcases step_cases hstep with ⟨clientId, will, rfl, hv, rfl⟩ | ⟨id, move, conn, rfl, hconn, hstep⟩
  · exact h.accept hv will
  · exact h.stepConnection hconn hstep

/-! ### Every close finds its own will -/

/-- What the close of a connection finds in the store is its own will or nothing. -/
def FindsOwn (s : State) (id : ℕ) : Prop :=
  ∀ conn ∈ s.connections[id]?, ∀ will ∈ s.willCache.getWill conn.clientId, will.connection = id

instance (s : State) (id : ℕ) : Decidable (s.FindsOwn id) :=
  inferInstanceAs (Decidable (∀ conn ∈ s.connections[id]?, ∀ will ∈ _, _))

/-- The condition on a step: the lookup of a close, and its removal, find its own will or
nothing. -/
def OwnWill (s : State) : Action → Prop
  | .move id .lookup => s.FindsOwn id
  | .move id .remove => s.FindsOwn id
  | _ => True

instance (s : State) : (a : Action) → Decidable (s.OwnWill a)
  | .accept .. => inferInstanceAs (Decidable True)
  | .move id move =>
      match move with
      | .lookup => inferInstanceAs (Decidable (s.FindsOwn id))
      | .remove => inferInstanceAs (Decidable (s.FindsOwn id))
      | .disconnect => inferInstanceAs (Decidable True)
      | .close => inferInstanceAs (Decidable True)
      | .publish => inferInstanceAs (Decidable True)
      | .check => inferInstanceAs (Decidable True)

/-- A close holds, publishes and removes only the will of its own connection. -/
structure Owned (s : State) : Prop where
  holding : ∀ (id : ℕ) (conn : Connection) (will : MqttWillMessage),
    s.connections[id]? = some conn → conn.phase = .publishing will → will.connection = id
  published : ∀ (id : ℕ) (will : MqttWillMessage), .published id will ∈ s.log →
    will.connection = id
  removed : ∀ (id : ℕ) (will : MqttWillMessage), .removed id will ∈ s.log → will.connection = id

lemma Owned.setConnection (h : s.Owned) (hconn : s.connections[id]? = some conn)
    {d : Connection} (hphase : ∀ will, d.phase = .publishing will → will.connection = id) :
    (s.setConnection id d).Owned := by
  refine ⟨fun i c will hc hp => ?_, h.published, h.removed⟩
  rcases get_setConnection hconn hc with ⟨rfl, rfl⟩ | ⟨-, hc⟩
  · exact hphase will hp
  · exact h.holding i c will hc hp

lemma Owned.stepConnection (h : s.Owned) (hconn : s.connections[id]? = some conn) {move : Move}
    (hown : s.OwnWill (.move id move)) (hstep : s.stepConnection id conn move = some s') :
    s'.Owned := by
  rcases stepConnection_cases hstep with ⟨-, hphase, rfl⟩ | ⟨-, -, rfl⟩ | ⟨rfl, -, rfl⟩ |
    ⟨will, -, hphase, rfl⟩ | ⟨-, -, rfl⟩ | ⟨rfl, -, rfl⟩
  · exact h.setConnection hconn (by simp [hphase])
  · exact h.setConnection hconn (by simp)
  · exact h.setConnection hconn fun will hp =>
      hown conn hconn will (looked_eq_publishing.1 hp)
  · have hset := h.setConnection hconn (d := { conn with phase := .published }) (by simp)
    refine ⟨hset.holding, fun i w hw => ?_, fun i w hw => ?_⟩
    · rcases mem_append.1 hw with hw | hw
      · exact h.published i w hw
      · obtain ⟨rfl, rfl⟩ : i = id ∧ w = will := by simpa using hw
        exact h.holding i conn w hconn hphase
    · rcases mem_append.1 hw with hw | hw
      · exact h.removed i w hw
      · simp at hw
  · exact h.setConnection hconn fun will hp => absurd hp (checked_ne_publishing _ will)
  · have hset := h.setConnection hconn (d := { conn with phase := .closed }) (by simp)
    refine ⟨hset.holding, fun i w hw => ?_, fun i w hw => ?_⟩
    · rcases mem_append.1 hw with hw | hw
      · exact h.published i w hw
      · simp at hw
    · rcases mem_append.1 hw with hw | hw
      · exact h.removed i w hw
      · simp only [mem_map, Option.mem_toList, Event.removed.injEq] at hw
        obtain ⟨w', hw', rfl, rfl⟩ := hw
        exact hown conn hconn w' hw'

lemma Owned.step (h : s.Owned) {a : Action} (hown : s.OwnWill a) (hstep : s.step a = some s') :
    s'.Owned := by
  rcases step_cases hstep with ⟨clientId, will, rfl, -, rfl⟩ | ⟨id, move, conn, rfl, hconn, hstep⟩
  · refine ⟨fun i c w hc hp => ?_, h.published, h.removed⟩
    rcases getElem?_concat_eq_some.1 hc with hc | ⟨-, rfl⟩
    · exact h.holding i c w hc hp
    · cases hp
  · exact h.stepConnection hconn hown hstep

/-- A will belongs to the connection that registered it: only the close of that connection
publishes or removes it, and publishes it at most once, and the close of a connection without a
will publishes nothing. -/
structure WillsOwned (s : State) : Prop where
  own : ∀ (id : ℕ) (will : MqttWillMessage), .published id will ∈ s.log →
    s.Registered will ∧ will.connection = id
  once : ∀ id : ℕ, s.log.countP (publishedOf id) ≤ 1
  kept : ∀ (id : ℕ) (will : MqttWillMessage), .removed id will ∈ s.log → will.connection = id
  silent : ∀ (id : ℕ) (conn : Connection), s.connections[id]? = some conn →
    (∀ will, conn.will = some will → ¬will.nonEmpty) →
    ∀ will : MqttWillMessage, .published id will ∉ s.log

lemma Inv.willsOwned (h : s.Inv) (ho : s.Owned) : s.WillsOwned := by
  refine ⟨fun id will hw => ⟨(h.published id will hw).1, ho.published id will hw⟩, fun id => ?_,
    ho.removed, fun id conn hconn hnone will hw => ?_⟩
  · refine (countP_mono_left fun e he hof => ?_).trans (h.once id)
    cases e with
    | removed => simp [publishedOf] at hof
    | published i will =>
        have hown := ho.published i will he
        simp only [publishedOf, beq_iff_eq] at hof
        simp [publishedBy, ← hown, hof]
  · obtain ⟨c, hc, w, hwill, hne, -⟩ := (h.published id will hw).1
    rw [ho.published id will hw] at hc
    obtain rfl := Option.some.inj (hconn.symm.trans hc)
    exact hnone w hwill hne

/-- In every run in which each close finds its own will or none, wills belong to the connections
that registered them. -/
theorem owned_run (as : List Action) (t : State) (hall : AllSteps step OwnWill initial as)
    (hrun : run step initial as = some t) : t.WillsOwned := by
  have hinv := invariant_run (I := fun s => s.Inv ∧ s.Owned)
    (fun s a s' _ hs hp hstep => ⟨hs.1.step hstep, hs.2.step hp hstep⟩)
    ⟨inv_initial, ⟨by simp [initial], by simp [initial], by simp [initial]⟩⟩ hall hrun
  exact hinv.1.willsOwned hinv.2

/-- A will that is retained or not. -/
def sampleWill (retain : Bool) : MqttWill := ⟨true, ['a'], [1], .atMostOnce, retain⟩

/-- One after the other, two connections of a client: the first with a will, the second without. -/
def oneByOne : List Action :=
  [.accept ['c'] (some (sampleWill false)), .move 0 .close, .move 0 .lookup, .move 0 .publish,
    .move 0 .check, .move 0 .remove, .accept ['c'] none, .move 1 .close, .move 1 .lookup]

/-- The state after `oneByOne`. -/
def afterOneByOne : State :=
  ⟨∅, [⟨['c'], some (sampleWill false), false, .closed⟩, ⟨['c'], none, false, .closed⟩],
    [.published 0 (MsgUtil.convert2MqttWillMessage (sampleWill false) ['c'] 0),
      .removed 0 (MsgUtil.convert2MqttWillMessage (sampleWill false) ['c'] 0)]⟩

theorem owned_run_oneByOne : afterOneByOne.WillsOwned :=
  owned_run oneByOne afterOneByOne (by decide) (by rfl)

/-- The close of a connection that was taken over publishes the will of the newer one. -/
theorem not_owned :
    ¬∀ (as : List Action) (t : State), run step initial as = some t → t.WillsOwned := by
  intro h
  have howned := h [.accept ['c'] (some (sampleWill false)),
    .accept ['c'] (some (sampleWill false)), .move 0 .close, .move 0 .lookup,
    .move 0 .publish] _ rfl
  have hown := (howned.own 0 (MsgUtil.convert2MqttWillMessage (sampleWill false) ['c'] 1)
    (by decide)).2
  exact absurd hown (by decide)

/-! ### One connection of a client at a time -/

/-- A client connects only when the closes of its earlier connections are through. -/
def OneAtATime (s : State) : Action → Prop
  | .accept clientId _ => ∀ conn ∈ s.connections, conn.clientId = clientId → conn.phase = .closed
  | .move .. => True

instance (s : State) : (a : Action) → Decidable (s.OneAtATime a)
  | .accept clientId _ => inferInstanceAs (Decidable (∀ conn ∈ s.connections,
      conn.clientId = clientId → conn.phase = .closed))
  | .move .. => inferInstanceAs (Decidable True)

/-- The will of a connection is stored until its close looks it up, and past the publication it
has been published. -/
structure Exclusive (s : State) : Prop where
  alone : ∀ (i j : ℕ) (ci cj : Connection), s.connections[i]? = some ci →
    s.connections[j]? = some cj → ci.clientId = cj.clientId → ci.phase ≠ .closed →
    cj.phase ≠ .closed → i = j
  kept : ∀ (i : ℕ) (c : Connection) (w : MqttWill), s.connections[i]? = some c →
    c.will = some w → w.nonEmpty → c.phase = .opened ∨ c.phase = .closing →
    s.willCache.get c.clientId = some (MsgUtil.convert2MqttWillMessage w c.clientId i)
  held : ∀ (i : ℕ) (c : Connection) (w : MqttWill) (will : MqttWillMessage),
    s.connections[i]? = some c → c.will = some w → w.nonEmpty → c.phase = .publishing will →
    will = MsgUtil.convert2MqttWillMessage w c.clientId i
  routed : ∀ (i : ℕ) (c : Connection) (w : MqttWill), s.connections[i]? = some c →
    c.will = some w → w.nonEmpty → c.phase.isPast = true →
    .published i (MsgUtil.convert2MqttWillMessage w c.clientId i) ∈ s.log

lemma Exclusive.setConnection (h : s.Exclusive) (hconn : s.connections[id]? = some conn)
    {d : Connection} (hclient : d.clientId = conn.clientId) (hwill : d.will = conn.will)
    (halive : conn.phase ≠ .closed)
    (hkept : d.phase = .opened ∨ d.phase = .closing →
      conn.phase = .opened ∨ conn.phase = .closing)
    (hheld : ∀ w will, conn.will = some w → w.nonEmpty → d.phase = .publishing will →
      will = MsgUtil.convert2MqttWillMessage w conn.clientId id)
    (hrouted : ∀ w, conn.will = some w → w.nonEmpty → d.phase.isPast = true →
      .published id (MsgUtil.convert2MqttWillMessage w conn.clientId id) ∈ s.log) :
    (s.setConnection id d).Exclusive := by
  refine ⟨fun i j ci cj hi hj hsame hci hcj => ?_, fun i c w hc hw hne hp => ?_,
    fun i c w will hc hw hne hp => ?_, fun i c w hc hw hne hp => ?_⟩
  · rcases get_setConnection hconn hi with ⟨hi', hci'⟩ | ⟨-, hi'⟩ <;>
      rcases get_setConnection hconn hj with ⟨hj', hcj'⟩ | ⟨-, hj'⟩
    · rw [hi', hj']
    · subst hi' hci'
      exact h.alone i j conn cj hconn hj' (hclient ▸ hsame) halive hcj
    · subst hj' hcj'
      exact h.alone i j ci conn hi' hconn (hsame.trans hclient) hci halive
    · exact h.alone i j ci cj hi' hj' hsame hci hcj
  · rcases get_setConnection hconn hc with ⟨rfl, rfl⟩ | ⟨-, hc⟩
    · rw [hclient]
      exact h.kept i conn w hconn (hwill ▸ hw) hne (hkept hp)
    · exact h.kept i c w hc hw hne hp
  · rcases get_setConnection hconn hc with ⟨rfl, rfl⟩ | ⟨-, hc⟩
    · rw [hclient]
      exact hheld w will (hwill ▸ hw) hne hp
    · exact h.held i c w will hc hw hne hp
  · rcases get_setConnection hconn hc with ⟨rfl, rfl⟩ | ⟨-, hc⟩
    · rw [hclient]
      exact hrouted w (hwill ▸ hw) hne hp
    · exact h.routed i c w hc hw hne hp

lemma Exclusive.publish (h : s.Exclusive) (hconn : s.connections[id]? = some conn)
    {will : MqttWillMessage} (hphase : conn.phase = .publishing will) :
    Exclusive { s.setPhase id conn .published with log := s.log ++ [.published id will] } := by
  -- the event is noted first, so that the new phase finds it in the log
  have hlog : Exclusive { s with log := s.log ++ [.published id will] } :=
    ⟨h.alone, h.kept, h.held, fun i c w hc hw hne hp =>
      mem_append_left _ (h.routed i c w hc hw hne hp)⟩
  refine hlog.setConnection (d := { conn with phase := .published }) hconn rfl rfl
    (by simp [hphase]) (by simp) (by simp) fun w hw hne _ => ?_
  refine mem_append_right _ ?_
  rw [h.held id conn w will hconn hw hne hphase]
  exact mem_singleton_self _

lemma Exclusive.remove (h : s.Exclusive) (hi : s.Inv) (hconn : s.connections[id]? = some conn)
    (hphase : conn.phase = .removing) :
    Exclusive { s.setPhase id conn .closed with
      willCache := s.willCache.delete conn.clientId
      log := s.log ++ (s.willCache.getWill conn.clientId).toList.map (.removed id) } := by
  have hset : (s.setPhase id conn .closed).Exclusive :=
    h.setConnection hconn rfl rfl (by simp [hphase]) (by simp) (by simp) fun w hw hne _ =>
      h.routed id conn w hconn hw hne (by rw [hphase]; rfl)
  refine ⟨hset.alone, fun i c w hc hw hne hp => ?_, hset.held, fun i c w hc hw hne hp =>
    mem_append_left _ (hset.routed i c w hc hw hne hp)⟩
  have hget := hset.kept i c w hc hw hne hp
  dsimp only
  rw [WillCache.delete_eq (hi.valid id conn hconn), PlainMap.get_remove_of_ne]
  · exact hget
  · -- another connection of the client would be closed
    intro hsame
    rcases get_setConnection hconn hc with ⟨rfl, rfl⟩ | ⟨hne', hc⟩
    · simp at hp
    · refine hne' (h.alone i id c conn hc hconn hsame ?_ (by simp [hphase]))
      rcases hp with hp | hp <;> simp [hp]

lemma Exclusive.accept (h : s.Exclusive) {clientId : Str}
    (hv : IdUtil.validateClientId clientId = true) {will : Option MqttWill}
    (halone : s.OneAtATime (.accept clientId will)) :
    Exclusive { s with
      willCache := s.willCache.handleWillMessage clientId s.connections.length will
      connections := s.connections ++ [⟨clientId, will, false, .opened⟩] } := by
  have hclosed : ∀ (i : ℕ) (c : Connection), s.connections[i]? = some c →
      c.clientId = clientId → c.phase = .closed := fun i c hc heq =>
    halone c (mem_of_getElem? hc) heq
  refine ⟨fun i j ci cj hi hj hsame hci hcj => ?_, fun i c w hc hw hne hp => ?_,
    fun i c w will' hc hw hne hp => ?_, fun i c w hc hw hne hp => ?_⟩
  · rcases getElem?_concat_eq_some.1 hi with hi | ⟨rfl, rfl⟩ <;>
      rcases getElem?_concat_eq_some.1 hj with hj | ⟨rfl, rfl⟩
    · exact h.alone i j ci cj hi hj hsame hci hcj
    · exact absurd (hclosed i ci hi hsame) hci
    · exact absurd (hclosed j cj hj hsame.symm) hcj
    · rfl
  · have hcases := WillCache.handleWillMessage_cases (s := s.willCache) hv s.connections.length will
    dsimp only
    rcases getElem?_concat_eq_some.1 hc with hc | ⟨rfl, rfl⟩
    · have hne' : c.clientId ≠ clientId := fun heq => by
        rw [hclosed i c hc heq] at hp
        simp at hp
      -- another client: its will is not touched
      have hold := h.kept i c w hc hw hne hp
      rcases hcases with ⟨heq, -⟩ | ⟨heq, -⟩ | ⟨w', -, -, heq⟩
      · rw [heq, hold]
      · rw [heq, PlainMap.get_remove_of_ne _ hne', hold]
      · rw [heq, PlainMap.get_put_of_ne _ hne', hold]
    -- the new connection: a will that is not empty is saved
    · dsimp only at hw ⊢
      subst hw
      rcases hcases with ⟨-, hflag⟩ | ⟨-, w', hw', -, hempty⟩ | ⟨w', hw', -, heq⟩
      · exact absurd hne.1 (by simp [hflag w rfl])
      · obtain rfl := Option.some.inj hw'
        exact absurd hempty hne.2
      · obtain rfl := Option.some.inj hw'
        rw [heq, PlainMap.get_put_self]
  · rcases getElem?_concat_eq_some.1 hc with hc | ⟨rfl, rfl⟩
    · exact h.held i c w will' hc hw hne hp
    · cases hp
  · rcases getElem?_concat_eq_some.1 hc with hc | ⟨rfl, rfl⟩
    · exact h.routed i c w hc hw hne hp
    · cases hp

lemma Exclusive.stepConnection (h : s.Exclusive) (hi : s.Inv)
    (hconn : s.connections[id]? = some conn) {move : Move}
    (hstep : s.stepConnection id conn move = some s') : s'.Exclusive := by
  rcases stepConnection_cases hstep with ⟨-, hphase, rfl⟩ | ⟨-, hphase, rfl⟩ | ⟨-, hphase, rfl⟩ |
    ⟨will, -, hphase, rfl⟩ | ⟨-, hphase, rfl⟩ | ⟨-, hphase, rfl⟩
  · exact h.setConnection hconn rfl rfl (by simp [hphase]) (by simp [hphase]) (by simp [hphase])
      (by simp [hphase, Phase.isPast])
  · exact h.setConnection hconn rfl rfl (by simp [hphase]) (by simp [hphase]) (by simp)
      (by simp [Phase.isPast])
  · -- the will of the connection is still stored
    have hfound : ∀ w, conn.will = some w → w.nonEmpty →
        looked (s.willCache.getWill conn.clientId) =
          .publishing (MsgUtil.convert2MqttWillMessage w conn.clientId id) := by
      intro w hw hne
      rw [WillCache.getWill_eq (hi.valid id conn hconn),
        h.kept id conn w hconn hw hne (Or.inr hphase)]
      rfl
    refine h.setConnection hconn rfl rfl (by simp [hphase]) (fun _ => Or.inr hphase)
      (fun w will hw hne hp => ?_) fun w hw hne hp => ?_
    · rw [hfound w hw hne] at hp
      exact (Phase.publishing.inj hp).symm
    · rw [hfound w hw hne] at hp
      cases hp
  · exact h.publish hconn hphase
  · refine h.setConnection hconn rfl rfl (by simp [hphase]) (fun hp => ?_)
      (fun w will _ _ hp => absurd hp (checked_ne_publishing _ will)) fun w hw hne _ =>
      h.routed id conn w hconn hw hne (by rw [hphase]; rfl)
    have hpast := isPast_checked (s.willCache.getWill conn.clientId)
    dsimp only at hp
    rcases hp with hp | hp <;> rw [hp] at hpast <;> cases hpast
  · exact h.remove hi hconn hphase

lemma Exclusive.step (h : s.Exclusive) (hi : s.Inv) {a : Action} (halone : s.OneAtATime a)
    (hstep : s.step a = some s') : s'.Exclusive := by
  rcases step_cases hstep with ⟨clientId, will, rfl, hv, rfl⟩ | ⟨id, move, conn, rfl, hconn, hstep⟩
  · exact h.accept hv halone
  · exact h.stepConnection hi hconn hstep

/-! ### Whose will a close publishes -/

/-- A will is stored, held and published under the client id of its connection, and a published one
is that of a connection that is past its publication. -/
structure Settled (s : State) : Prop where
  stored : ∀ (clientId : Str) (will : MqttWillMessage), s.willCache.get clientId = some will →
    will.clientId = clientId
  holding : ∀ (i : ℕ) (c : Connection) (will : MqttWillMessage), s.connections[i]? = some c →
    c.phase = .publishing will → will.clientId = c.clientId
  published : ∀ (i : ℕ) (will : MqttWillMessage), .published i will ∈ s.log →
    ∀ c, s.connections[will.connection]? = some c → c.phase.isPast = true

lemma Settled.setConnection (h : s.Settled) (hconn : s.connections[id]? = some conn)
    {d : Connection} (hclient : d.clientId = conn.clientId)
    (hphase : ∀ will, d.phase = .publishing will → will.clientId = conn.clientId)
    (hpast : conn.phase.isPast = true → d.phase.isPast = true) :
    (s.setConnection id d).Settled := by
  refine ⟨h.stored, fun i c will hc hp => ?_, fun i will hlog c hc => ?_⟩
  · rcases get_setConnection hconn hc with ⟨-, rfl⟩ | ⟨-, hc⟩
    · rw [hclient]
      exact hphase will hp
    · exact h.holding i c will hc hp
  · rcases get_setConnection hconn hc with ⟨hid, rfl⟩ | ⟨-, hc⟩
    · exact hpast (h.published i will hlog conn (hid ▸ hconn))
    · exact h.published i will hlog c hc

lemma Settled.publish (h : s.Settled) (hi : s.Inv) (he : s.Exclusive)
    (hconn : s.connections[id]? = some conn) {will : MqttWillMessage}
    (hphase : conn.phase = .publishing will) :
    Settled { s.setPhase id conn .published with log := s.log ++ [.published id will] } := by
  have hset := h.setConnection hconn (d := { conn with phase := .published }) rfl (by simp)
    (fun _ => rfl)
  refine ⟨hset.stored, hset.holding, fun i w hw c hc => ?_⟩
  rcases mem_append.1 hw with hw | hw
  · exact hset.published i w hw c hc
  · obtain ⟨rfl, rfl⟩ : i = id ∧ w = will := by simpa using hw
    rcases get_setConnection hconn hc with ⟨-, rfl⟩ | ⟨hne, hc⟩
    · rfl
    · -- the will of another connection of the client, which is closed by now
      have hclosed : c.phase = .closed := by
        obtain ⟨c', hc', v, -, -, heq⟩ := hi.holding i conn w hconn hphase
        obtain rfl := Option.some.inj (hc.symm.trans hc')
        have hclient : w.clientId = c.clientId := by rw [heq]; rfl
        by_contra hopen
        exact hne (he.alone _ i c conn hc hconn
          (hclient.symm.trans (h.holding i conn w hconn hphase)) hopen (by simp [hphase]))
      rw [hclosed]
      rfl

lemma Settled.remove (h : s.Settled) (hi : s.Inv) (hconn : s.connections[id]? = some conn) :
    Settled { s.setPhase id conn .closed with
      willCache := s.willCache.delete conn.clientId
      log := s.log ++ (s.willCache.getWill conn.clientId).toList.map (.removed id) } := by
  have hset := h.setConnection hconn (d := { conn with phase := .closed }) rfl (by simp)
    (fun _ => rfl)
  refine ⟨fun k will hk => ?_, hset.holding, fun i w hw c hc => ?_⟩
  · dsimp only at hk
    rw [WillCache.delete_eq (hi.valid id conn hconn)] at hk
    exact h.stored k will (PlainMap.get_of_get_remove _ hk)
  · rcases mem_append.1 hw with hw | hw
    · exact hset.published i w hw c hc
    · simp at hw

lemma Settled.accept (h : s.Settled) (hi : s.Inv) {clientId : Str}
    (hv : IdUtil.validateClientId clientId = true) (will : Option MqttWill) :
    Settled { s with
      willCache := s.willCache.handleWillMessage clientId s.connections.length will
      connections := s.connections ++ [⟨clientId, will, false, .opened⟩] } := by
  refine ⟨fun k w hk => ?_, fun i c w hc hp => ?_, fun i w hw c hc => ?_⟩
  · dsimp only at hk
    rcases WillCache.handleWillMessage_cases (s := s.willCache) hv s.connections.length will with
      ⟨heq, -⟩ | ⟨heq, -⟩ | ⟨w', -, -, heq⟩
    · rw [heq] at hk
      exact h.stored k w hk
    · rw [heq] at hk
      exact h.stored k w (PlainMap.get_of_get_remove _ hk)
    · rw [heq] at hk
      rcases PlainMap.eq_or_get_of_get_put _ hk with ⟨rfl, rfl⟩ | hk
      · rfl
      · exact h.stored k w hk
  · rcases getElem?_concat_eq_some.1 hc with hc | ⟨-, rfl⟩
    · exact h.holding i c w hc hp
    · cases hp
  · -- the connection of a published will is an older one
    obtain ⟨⟨c', hc', -⟩, -⟩ := hi.published i w hw
    rcases getElem?_concat_eq_some.1 hc with hc | ⟨hlen, -⟩
    · exact h.published i w hw c hc
    · exact absurd hlen (List.getElem?_eq_some_iff.1 hc').1.ne

lemma Settled.step (h : s.Settled) (hi : s.Inv) (he : s.Exclusive) {a : Action}
    (hstep : s.step a = some s') : s'.Settled := by
  rcases step_cases hstep with ⟨clientId, will, rfl, hv, rfl⟩ | ⟨id, move, conn, rfl, hconn, hstep⟩
  · exact h.accept hi hv will
  rcases stepConnection_cases hstep with ⟨-, hphase, rfl⟩ | ⟨-, hphase, rfl⟩ | ⟨-, hphase, rfl⟩ |
    ⟨will, -, hphase, rfl⟩ | ⟨-, hphase, rfl⟩ | ⟨-, hphase, rfl⟩
  · exact h.setConnection hconn rfl (by simp [hphase]) fun hp => hp
  · exact h.setConnection hconn rfl (by simp) (by simp [hphase, Phase.isPast])
  · refine h.setConnection hconn rfl (fun will hp => ?_) (by simp [hphase, Phase.isPast])
    rw [WillCache.getWill_eq (hi.valid _ conn hconn)] at hp
    exact h.stored _ will (looked_eq_publishing.1 hp)
  · exact h.publish hi he hconn hphase
  · exact h.setConnection hconn rfl (fun will hp => absurd hp (checked_ne_publishing _ will))
      fun _ => isPast_checked _
  · exact h.remove hi hconn

/-- The will of a connection that sent DISCONNECT is not routed, by no close, and the close of a
connection that did not send it has routed its will if that is not empty. -/
def WillsOfClosed (s : State) : Prop :=
  ∀ (id : ℕ) (conn : Connection), s.connections[id]? = some conn →
    (conn.disconnected = true → ∀ (closer : ℕ) (will : MqttWillMessage),
      .published closer will ∈ s.log → will.connection ≠ id) ∧
    (conn.phase = .closed → conn.disconnected = false →
      ∀ w, conn.will = some w → w.nonEmpty →
        .published id (MsgUtil.convert2MqttWillMessage w conn.clientId id) ∈ s.log)

/-- No connection with a will that is not empty has sent DISCONNECT and got past the publication
of its close. -/
def NoDisconnectedWill (s : State) : Prop :=
  ∀ (id : ℕ) (conn : Connection), s.connections[id]? = some conn → conn.disconnected = true →
    ∀ w, conn.will = some w → w.nonEmpty → conn.phase.isPast = false

/-- With one connection of a client at a time, wills are routed as they should iff no connection
with a will has sent DISCONNECT before it was closed. -/
theorem willsOfClosed_iff (as : List Action) (t : State)
    (hall : AllSteps step OneAtATime initial as) (hrun : run step initial as = some t) :
    t.WillsOfClosed ↔ t.NoDisconnectedWill := by
  obtain ⟨hi, he, hs⟩ := invariant_run (I := fun s => s.Inv ∧ s.Exclusive ∧ s.Settled)
    (fun s a s' _ h hp hstep => ⟨h.1.step hstep, h.2.1.step h.1 hp hstep,
      h.2.2.step h.1 h.2.1 hstep⟩)
    ⟨inv_initial, ⟨by simp [initial], by simp [initial], by simp [initial], by simp [initial]⟩,
      ⟨by simp [initial], by simp [initial], by simp [initial]⟩⟩
    hall hrun
  constructor
  · intro h id conn hconn hdis w hw hne
    by_contra hpast
    -- the close of this connection has routed its will itself
    have hmem := he.routed id conn w hconn hw hne (by simpa using hpast)
    exact (h id conn hconn).1 hdis id _ hmem rfl
  · intro h id conn hconn
    refine ⟨fun hdis closer will hmem hown => ?_, fun hclosed _ w hw hne => ?_⟩
    -- a routed will is that of a connection past its publication, which the condition excludes
    · obtain ⟨⟨c, hc, w, hw, hne, -⟩, -⟩ := hi.published closer will hmem
      have hpast := hs.published closer will hmem c hc
      rw [hown] at hc
      obtain rfl := Option.some.inj (hconn.symm.trans hc)
      rw [h id conn hconn hdis w hw hne] at hpast
      simp at hpast
    · exact he.routed id conn w hconn hw hne (by rw [hclosed]; rfl)

theorem willsOfClosed_iff_oneByOne :
    afterOneByOne.WillsOfClosed ↔ afterOneByOne.NoDisconnectedWill :=
  willsOfClosed_iff oneByOne afterOneByOne (by decide) (by rfl)

/-- The will of a client that sends DISCONNECT is routed. -/
theorem not_willsOfClosed :
    ¬∀ (as : List Action) (t : State), AllSteps step OneAtATime initial as →
      run step initial as = some t → t.WillsOfClosed := by
  intro h
  have hwills := h [.accept ['c'] (some (sampleWill false)), .move 0 .disconnect, .move 0 .close,
    .move 0 .lookup, .move 0 .publish] _ (by decide) rfl
  exact (hwills 0 _ rfl).1 rfl 0 (MsgUtil.convert2MqttWillMessage (sampleWill false) ['c'] 0)
    (by decide) rfl

/-! ### The handler in one piece -/

lemma step_move (hconn : s.connections[id]? = some conn) (move : Move) :
    s.step (.move id move) = s.stepConnection id conn move := by
  simp only [State.step, hconn]

lemma willCache_handleWillPublish {v : Verticle} {client : MqttClient}
    (hclient : v.client id = some client) :
    (v.handleWillPublish id).willCache =
      match v.willCache.getWill client.clientId with
      | none => v.willCache
      | some will =>
          if will.retain then v.willCache else v.willCache.delete client.clientId := by
  simp only [Verticle.handleWillPublish]
  rw [hclient]
  cases hfound : v.willCache.getWill client.clientId with
  | none => simp [hfound]
  | some will =>
      have hroute : ∀ (origin : Origin) (topic : Str) (qos : MqttQoS) (message : MqttMessage),
          (v.route origin topic qos message).willCache = v.willCache := fun _ _ _ _ => rfl
      simp only [hfound, hroute, WillCache.deleteWill]
      rfl

/-- A close that runs without anything in between does to the stored wills what
`handleWillPublish` of the verticle does. -/
theorem exists_run_close (v : Verticle) (hconn : s.connections[id]? = some conn)
    (hphase : conn.phase = .closing) {client : MqttClient} (hclient : v.client id = some client)
    (hid : client.clientId = conn.clientId) (hcache : v.willCache = s.willCache) :
    ∃ (moves : List Move) (t : State), run step s (moves.map (.move id)) = some t ∧
      t.willCache = (v.handleWillPublish id).willCache := by
  rw [willCache_handleWillPublish hclient, hid, hcache]
  have hlookup : s.step (.move id .lookup) =
      some (s.setPhase id conn (looked (s.willCache.getWill conn.clientId))) := by
    rw [step_move hconn, stepConnection, if_pos hphase]
  cases hfound : s.willCache.getWill conn.clientId with
  | none =>
      rw [hfound] at hlookup
      refine ⟨[.lookup], s.setPhase id conn .closed, ?_, rfl⟩
      rw [map_singleton, run_cons, hlookup]
      rfl
  | some will =>
      rw [hfound] at hlookup
      -- lookup, publish, check and perhaps remove, one state after the other
      set s₁ := s.setPhase id conn (.publishing will) with hs₁
      have hlookup : s.step (.move id .lookup) = some s₁ := hlookup
      have hconn₁ : s₁.connections[id]? = some { conn with phase := .publishing will } := by
        rw [hs₁, setPhase, setConnection, getElem?_set_of_some hconn, if_pos rfl]
      set s₂ : State := { s₁.setPhase id { conn with phase := .publishing will } .published with
        log := s₁.log ++ [.published id will] } with hs₂
      have hpublish : s₁.step (.move id .publish) = some s₂ := by
        rw [step_move hconn₁, stepConnection]
      have hconn₂ : s₂.connections[id]? = some { conn with phase := .published } := by
        rw [hs₂, setPhase, setConnection, getElem?_set_of_some hconn₁, if_pos rfl]
      set s₃ := s₂.setPhase id { conn with phase := .published } (checked (some will)) with hs₃
      have hcheck : s₂.step (.move id .check) = some s₃ := by
        rw [step_move hconn₂, stepConnection, if_pos rfl]
        show some (s₂.setPhase id _ (checked (s.willCache.getWill conn.clientId))) = _
        rw [hfound]
      have hrun : run step s [.move id .lookup, .move id .publish, .move id .check] = some s₃ := by
        rw [run_cons, hlookup, Option.bind_some, run_cons, hpublish, Option.bind_some, run_cons,
          hcheck, Option.bind_some, run_nil]
      by_cases hretain : will.retain = true
      · refine ⟨[.lookup, .publish, .check], s₃, hrun, ?_⟩
        dsimp only
        rw [if_pos hretain]
        rfl
      · have hconn₃ : s₃.connections[id]? = some { conn with phase := .removing } := by
          rw [hs₃, setPhase, setConnection, getElem?_set_of_some hconn₂, if_pos rfl, checked,
            if_neg hretain]
        obtain ⟨s₄, hremove, hcache₄⟩ : ∃ s₄, s₃.step (.move id .remove) = some s₄ ∧
            s₄.willCache = s.willCache.delete conn.clientId := by
          rw [step_move hconn₃, stepConnection, if_pos rfl]
          exact ⟨_, rfl, rfl⟩
        refine ⟨[.lookup, .publish, .check, .remove], s₄, ?_, ?_⟩
        · show run step s ([.move id .lookup, .move id .publish, .move id .check] ++
            [.move id .remove]) = some s₄
          rw [run_append, hrun, Option.bind_some, run_cons, hremove, Option.bind_some, run_nil]
        · dsimp only
          rw [if_neg hretain, hcache₄]

end State

end Wills

end Stuart
